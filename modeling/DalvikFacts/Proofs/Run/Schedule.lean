import DalvikFacts.Proofs.Run.Conclusion
import DalvikFacts.Proofs.Run.Worker

/-!
# Schedules

When failures are not to stop it, a run writes the same rows whatever turns its workers take and
however many classes each of them is given.  Only the order of rows may change, and not that of
phantom entities.
-/

namespace DalvikFacts

/-! ## References -/

/-- The references of a run, after those of another container. -/
def References.report (references : References) (container : Container) : References where
  fields := references.fields ++ container.fields.map FieldSig.ofRef
  types := container.types.toList.foldl
    (fun types type => if type.isClass then types.insert type.sourceName else types)
    references.types
  methods := container.methods.toList.foldl
    (fun methods ref => methods.insert (MethodSig.ofRef ref).id) references.methods

namespace Hierarchy

variable {container : Container} {hierarchy : Hierarchy} {cache : SignatureCache}

theorem foldl_lookUpField {fields : List (FieldRef × Nat)}
    (found : ∀ field ∈ fields, container.fieldAt field.2 = .ok field.1)
    (knows : cache.Knows container) :
    (fields.foldl lookUpField (hierarchy, cache)).1 = { hierarchy with
      referencedFields := hierarchy.referencedFields ++
        (fields.map fun field => FieldSig.ofRef field.1).toArray } ∧
      (fields.foldl lookUpField (hierarchy, cache)).2.Knows container := by
  induction fields generalizing hierarchy cache with
  | nil => exact ⟨by simp, knows⟩
  | cons field rest induction =>
    obtain ⟨value_eq, kept⟩ := knows.ofField (found field (by simp))
    obtain ⟨hierarchy_eq, knows_last⟩ := @induction
      (hierarchy.referField (cache.ofField field.2 field.1).1.value)
      (cache.ofField field.2 field.1).2 (fun other member => found other (by simp [member])) kept
    refine ⟨hierarchy_eq.trans ?_, knows_last⟩
    simp [referField, value_eq]

theorem foldl_referType (types : List Descriptor) :
    types.foldl referType hierarchy = { hierarchy with
      referencedTypes := types.foldl
        (fun types type => if type.isClass then types.insert type.sourceName else types)
        hierarchy.referencedTypes } := by
  induction types generalizing hierarchy with
  | nil => rfl
  | cons type rest induction =>
    rw [List.foldl_cons, induction, List.foldl_cons]
    unfold referType
    split <;> rfl

theorem foldl_lookUpMethod {methods : List MethodRef} (knows : cache.Knows container) :
    (methods.foldl lookUpMethod (hierarchy, cache)).1 = { hierarchy with
      referencedMethods := methods.foldl
        (fun methods ref => methods.insert (MethodSig.ofRef ref).id)
        hierarchy.referencedMethods } := by
  induction methods generalizing hierarchy cache with
  | nil => rfl
  | cons ref rest induction =>
    obtain ⟨value_eq, kept⟩ := knows.ofMethod ref
    refine (@induction (hierarchy.referMethod (cache.ofMethod ref).1.value.id)
      (cache.ofMethod ref).2 kept).trans ?_
    rw [value_eq]
    rfl

theorem reportReferences_eq (knows : cache.Knows container) :
    (hierarchy.reportReferences container cache).1 = { hierarchy with
      referencedFields := (hierarchy.references.report container).fields
      referencedTypes := (hierarchy.references.report container).types
      referencedMethods := (hierarchy.references.report container).methods } := by
  have found : ∀ field ∈ container.fields.toList.zipIdx,
      container.fieldAt field.2 = .ok field.1 := by
    rintro ⟨ref, index⟩ member
    have get_eq := List.mem_zipIdx_iff_getElem?.1 member
    simp [Container.fieldAt, Container.entry, ← Array.getElem?_toList, get_eq]
  obtain ⟨fields_eq, knows_fields⟩ := @foldl_lookUpField _ hierarchy _ _ found knows
  have signatures_eq : (container.fields.toList.zipIdx.map fun field =>
      FieldSig.ofRef field.1).toArray = container.fields.map FieldSig.ofRef := by
    change (container.fields.toList.zipIdx.map (FieldSig.ofRef ∘ Prod.fst)).toArray = _
    rw [← List.map_map, List.zipIdx_map_fst, ← Array.toList_map, Array.toArray_toList]
  refine (foldl_lookUpMethod knows_fields).trans ?_
  rw [foldl_referType, fields_eq, signatures_eq]
  rfl

end Hierarchy

section References

variable {container : Container} {allowed : String → String → Prop} {references : References}
  {ledger : Ledger} {state : RunState} {cache : SignatureCache}

theorem RunState.Records.report (knows : cache.Knows container)
    (records : state.Records allowed references ledger) :
    RunState.Records allowed (references.report container) ledger
      { state with hierarchy := (state.hierarchy.reportReferences container cache).1 } := by
  have report_eq := @Hierarchy.reportReferences_eq _ state.hierarchy _ knows
  rw [records.references_eq] at report_eq
  rw [report_eq]
  exact
    { represents :=
        { supers := records.represents.supers
          classes := records.represents.classes
          fields := records.represents.fields
          methods := records.represents.methods
          accesses := records.represents.accesses
          totals := records.represents.totals }
      linked := records.linked
      references_eq := rfl }

theorem RunState.Holds.report (knows : cache.Knows container)
    (holds : state.Holds allowed references ledger) :
    RunState.Holds allowed (references.report container) ledger
      { state with hierarchy := (state.hierarchy.reportReferences container cache).1 } where
  toRecords := holds.toRecords.report knows
  errors_eq := holds.errors_eq

end References

namespace Run

variable {options : Options} {container : Container} {allowed : String → String → Prop}
  {references : References} {ledger : Ledger} {state : RunState}

theorem flatten_groupsOf {α : Type} (size : Nat) (items : List α) :
    (groupsOf size items).flatten = items := by
  induction items using groupsOf.induct size with
  | case1 => simp [groupsOf]
  | case2 item rest induction =>
    rw [groupsOf, List.flatten_cons, induction, List.cons_append, List.take_append_drop]

theorem mem_accepted_of_mem {group : List ClassDef} {cls : ClassDef}
    (group_mem : group ∈ groupsOf options.groupSize (accepted options container))
    (cls_mem : cls ∈ group) : cls ∈ accepted options container := by
  rw [← flatten_groupsOf options.groupSize (accepted options container)]
  exact List.mem_flatten_of_mem group_mem cls_mem

/-- The sum of the ledgers of the classes of a container. -/
def containerLedger (options : Options) (ledgerOf : Container → ClassDef → Ledger)
    (container : Container) : Ledger :=
  ((accepted options container).map (ledgerOf container)).sum

/-- All classes leave their ledgers, whatever others do. -/
def ClassesLeave (allowed : String → String → Prop) (options : Options)
    (ledgerOf : Container → ClassDef → Ledger) (container : Container) : Prop :=
  ∀ cls ∈ accepted options container, ∀ references, Work.Leaves container allowed references
    (extractClass options container cls).run (· = .ok ()) (ledgerOf container cls)

variable {ledgerOf : Container → ClassDef → Ledger}

theorem extractClasses_leaves (classes : ClassesLeave allowed options ledgerOf container)
    (turns : List Nat) (holds : state.Holds allowed references ledger) :
    let outcome := (extractClasses options container turns).run state
    outcome.value.Knows container ∧
      outcome.state.Holds allowed references
        (ledger + containerLedger options ledgerOf container) ∧
      (containerLedger options ledgerOf container).facts = factsOf outcome.events := by
  have sum_eq : ((groupsOf options.groupSize (accepted options container)).map fun group =>
      (group.map (ledgerOf container)).sum).sum = containerLedger options ledgerOf container := by
    unfold containerLedger
    nth_rewrite 2 [← flatten_groupsOf options.groupSize (accepted options container)]
    rw [List.map_flatten, List.sum_flatten, List.map_map]
    rfl
  have workers : ∀ group ∈ groupsOf options.groupSize (accepted options container),
      Work.Leaves container allowed references (worker options container group) (fun _ => True)
        (group.map (ledgerOf container)).sum := by
    intro group group_mem
    exact leaves_worker fun cls cls_mem =>
      classes cls (mem_accepted_of_mem group_mem cls_mem) references
  have shares : WorkState.Shares container allowed references ledger ⟨.empty, state⟩ :=
    { toHolds := holds, cache := SignatureCache.knows_empty }
  obtain ⟨shares_last, facts_eq⟩ := extractClasses_of_workers workers turns shares
  rw [sum_eq] at shares_last facts_eq
  exact ⟨shares_last.cache, shares_last.toHolds, facts_eq⟩

theorem extractContainer_leaves (classes : ClassesLeave allowed options ledgerOf container)
    (turns : List Nat) (holds : state.Holds allowed references ledger) :
    let outcome := (extractContainer options container turns).run state
    outcome.state.Holds allowed (references.report container)
        (ledger + containerLedger options ledgerOf container) ∧
      (containerLedger options ledgerOf container).facts = factsOf outcome.events := by
  obtain ⟨knows, holds_classes, facts_eq⟩ := extractClasses_leaves classes turns holds
  have reported := holds_classes.report knows
  unfold extractContainer
  cases container.methodHandles.isEmpty
  all_goals
    simp only [Bool.not_true, Bool.not_false, Bool.false_eq_true, if_true, if_false, Emit.run_bind,
      Emit.run_modifyGet, Emit.notice, Emit.run_event, factsOf_append, factsOf_cons_notice,
      factsOf_nil, List.nil_append, List.append_nil]
    exact ⟨reported, facts_eq⟩

/-- The references of a run, after those of successive containers. -/
def referencesAfter (references : References) (containers : List Container) : References :=
  containers.foldl References.report references

/-- The sum of the ledgers of containers. -/
def runLedger (options : Options) (ledgerOf : Container → ClassDef → Ledger)
    (containers : List Container) : Ledger :=
  (containers.map (containerLedger options ledgerOf)).sum

/-- Whatever turns the workers take on each container, a run leaves the ledgers of all classes. -/
theorem extractContainers_leaves (tolerant : options.failFast = false) {containers : List Container}
    (classes : ∀ container ∈ containers, ClassesLeave allowed options ledgerOf container)
    (schedule : Schedule) (holds : state.Holds allowed references ledger) :
    let outcome := (extractContainers options schedule containers).run state
    outcome.value = containers.length ∧
      outcome.state.Holds allowed (referencesAfter references containers)
        (ledger + runLedger options ledgerOf containers) ∧
      (runLedger options ledgerOf containers).facts = factsOf outcome.events := by
  induction containers generalizing schedule state references ledger with
  | nil =>
    refine ⟨rfl, ?_, rfl⟩
    rw [runLedger, List.map_nil, List.sum_nil, add_zero]
    exact holds
  | cons container rest induction =>
    obtain ⟨holds_now, facts_eq⟩ :=
      extractContainer_leaves (classes container (by simp)) (schedule.headD []) holds
    obtain ⟨count_eq, holds_last, rest_eq⟩ := induction
      (fun other member => classes other (by simp [member])) schedule.tail holds_now
    unfold extractContainers
    simp only [tolerant, Bool.false_and, Bool.false_eq_true, if_false, Emit.run_bind, Emit.run_get,
      Emit.run_pure, List.nil_append, List.append_nil]
    refine ⟨by rw [count_eq, List.length_cons], ?_, ?_⟩
    · rw [runLedger, List.map_cons, List.sum_cons, ← add_assoc]
      exact holds_last
    · rw [runLedger, List.map_cons, List.sum_cons, Ledger.facts_add, facts_eq, factsOf_append,
        ← Multiset.coe_add]
      exact congrArg _ rest_eq

theorem holds_start : RunState.Holds allowed Hierarchy.empty.references 0 ⟨.empty, .zero, 0⟩ where
  represents := .start
  linked _ _ member := by simp at member
  references_eq := rfl
  errors_eq := rfl

/-- The end of a run writes what the hierarchy tells, and gives the counts unless groups failed. -/
theorem finish_facts (options : Options) (count : Nat) (state : RunState) :
    let outcome := (finish options count).run state
    outcome.value = (if 0 < state.errors then .error (.failed state.errors) else .ok
        { containers := count
          totals := state.totals
          phantoms := state.hierarchy.phantomCounts }) ∧
      factsOf outcome.events = state.hierarchy.accesses.toList.map state.hierarchy.accessFact ++
        state.hierarchy.phantomFacts options.phantoms := by
  obtain ⟨phantoms_eq, facts_eq⟩ := state.hierarchy.conclude_facts options.phantoms
  unfold finish
  by_cases errors : 0 < state.errors <;> by_cases failures : 0 < state.totals.failures
  all_goals
    simp only [Emit.zoom, Emit.notice, errors, failures, phantoms_eq, facts_eq, Emit.run_bind,
      Emit.run_get, Emit.run_event, Emit.run_pure, if_true, if_false, factsOf_append,
      factsOf_cons_notice, factsOf_nil, List.append_nil, and_self]

/-- Under each schedule, a run on nothing ends in a state that holds the ledgers of all classes.  It
writes the rows of these ledgers, then those that depend on that state. -/
theorem runUnder_leaves (tolerant : options.failFast = false) {containers : List Container}
    (classes : ∀ container ∈ containers, ClassesLeave allowed options ledgerOf container)
    (schedule : Schedule) :
    let outcome := (runUnder schedule options containers).run .empty
    ∃ (state : RunState) (early : List Fact),
      state.Holds allowed (referencesAfter Hierarchy.empty.references containers)
        (runLedger options ledgerOf containers) ∧
      outcome.value = .ok
        { containers := containers.length
          totals := (runLedger options ledgerOf containers).totals
          phantoms := state.hierarchy.phantomCounts } ∧
      factsOf outcome.events =
        early ++ (state.hierarchy.accesses.toList.map state.hierarchy.accessFact ++
          state.hierarchy.phantomFacts options.phantoms) ∧
      (early : Multiset Fact) = (runLedger options ledgerOf containers).facts := by
  obtain ⟨count_eq, holds, facts_eq⟩ :=
    extractContainers_leaves tolerant classes schedule holds_start
  rw [zero_add] at holds
  obtain ⟨value_eq, late_eq⟩ := finish_facts options containers.length
    ((extractContainers options schedule containers).run ⟨.empty, .zero, 0⟩).state
  rw [holds.errors_eq, if_neg (Nat.lt_irrefl 0), holds.represents.totals] at value_eq
  refine ⟨_, _, holds, ?_, ?_, facts_eq.symm⟩
  · rw [← value_eq, ← count_eq]
    rfl
  · rw [← late_eq, ← factsOf_append, ← count_eq]
    rfl

/-- No two class definitions that are extracted give different super classes to one name. -/
def Consistent (options : Options) (containers : List Container) : Prop :=
  ∀ first ∈ containers, ∀ second ∈ containers, ∀ cls ∈ accepted options first,
    ∀ other ∈ accepted options second, cls.name = other.name →
      ∀ superName otherName, cls.superName? = some superName →
        other.superName? = some otherName → superName = otherName

/-- A class definition that is extracted gives a super class to a name. -/
def GivesSuper (options : Options) (containers : List Container) (name superName : String) : Prop :=
  ∃ container ∈ containers, ∃ cls ∈ accepted options container,
    cls.name = name ∧ cls.superName? = some superName

theorem Consistent.givesSuper_functional {containers : List Container}
    (consistent : Consistent options containers) (name superName other : String)
    (gives : GivesSuper options containers name superName)
    (gives_other : GivesSuper options containers name other) : other = superName := by
  obtain ⟨first, first_mem, cls, cls_mem, cls_name, super_eq⟩ := gives
  obtain ⟨second, second_mem, again, again_mem, again_name, other_eq⟩ := gives_other
  exact consistent second second_mem first first_mem again again_mem cls cls_mem
    (again_name.trans cls_name.symm) other superName other_eq super_eq

/-- Under the same options but for the size of groups, all classes leave their ledgers. -/
theorem exists_ledgers (tolerant : options.failFast = false) {containers : List Container}
    (consistent : Consistent options containers) :
    ∃ (allowed : String → String → Prop) (ledgerOf : Container → ClassDef → Ledger),
      (∀ container ∈ containers, ∀ cls ∈ accepted options container,
        (ledgerOf container cls).Plain) ∧
      ∀ size, ∀ container ∈ containers,
        ClassesLeave allowed { options with groupSize := size } ledgerOf container := by
  have chosen : ∀ container cls, ∃ ledger : Ledger, container ∈ containers →
      cls ∈ accepted options container → ledger.Plain ∧ ∀ size references,
        Work.Leaves container (GivesSuper options containers) references
          (extractClass { options with groupSize := size } container cls).run (· = .ok ())
          ledger := by
    intro container cls
    by_cases known : container ∈ containers ∧ cls ∈ accepted options container
    · obtain ⟨ledger, holds⟩ := exists_classLedger tolerant container
        (fun superName super_eq => ⟨container, known.1, cls, known.2, rfl, super_eq⟩)
        consistent.givesSuper_functional
      exact ⟨ledger, fun _ _ => holds⟩
    · -- what is not extracted may leave anything
      exact ⟨0, fun container_mem cls_mem => absurd ⟨container_mem, cls_mem⟩ known⟩
  choose ledgerOf holds using chosen
  refine ⟨GivesSuper options containers, ledgerOf, fun container container_mem cls cls_mem =>
    (holds container cls container_mem cls_mem).1, ?_⟩
  intro size container container_mem cls cls_mem references
  exact (holds container cls container_mem cls_mem).2 size references

theorem plain_runLedger {containers : List Container}
    (plain : ∀ container ∈ containers, ∀ cls ∈ accepted options container,
      (ledgerOf container cls).Plain) : (runLedger options ledgerOf containers).Plain := by
  refine .sum fun ledger member => ?_
  obtain ⟨container, container_mem, rfl⟩ := List.mem_map.1 member
  refine .sum fun ledger member => ?_
  obtain ⟨cls, cls_mem, rfl⟩ := List.mem_map.1 member
  exact plain container container_mem cls cls_mem

theorem filter_phantom {relation : Relation} (phantom : relation ∈ phantomRelations)
    (plain : ledger.Plain) (represents : state.Represents ledger) {early : List Fact}
    (early_eq : (early : Multiset Fact) = ledger.facts) (late : List Fact) :
    (early ++ (state.hierarchy.accesses.toList.map state.hierarchy.accessFact ++ late)).filter
        (·.relation == relation) = late.filter (·.relation == relation) := by
  have rows_nil : early.filter (·.relation == relation) = [] := by
    rw [List.filter_eq_nil_iff]
    intro fact member relation_eq
    have entry_mem := ledger.mem_of_mem_facts (early_eq ▸ Multiset.mem_coe.2 member)
    exact plain _ entry_mem (eq_of_beq relation_eq ▸ phantom)
  have accesses_nil : (state.hierarchy.accesses.toList.map state.hierarchy.accessFact).filter
      (·.relation == relation) = [] := by
    rw [List.filter_eq_nil_iff]
    intro fact member relation_eq
    obtain ⟨access, access_mem, rfl⟩ := List.mem_map.1 member
    have entry_mem := ledger.mem_of_mem_accesses
      (represents.accesses ▸ Multiset.mem_coe.2 access_mem)
    have access_eq : access.relation = relation := eq_of_beq relation_eq
    exact plain _ entry_mem (access_eq ▸ phantom)
  rw [List.filter_append, List.filter_append, rows_nil, accesses_nil, List.nil_append,
    List.nil_append]

end Run

/-- When failures are not to stop it, a run on containers whose classes have one super class each
succeeds with the same statistics and writes the same rows, whatever the size of the groups and
whatever turns their workers take.  The rows of phantom entities even come in the same order. -/
theorem runUnder_schedule_irrelevant {options : Options} (tolerant : options.failFast = false)
    {containers : List Container} (consistent : Run.Consistent options containers)
    (firstSize secondSize : Nat) (firstSchedule secondSchedule : Schedule) :
    let first := (Run.runUnder firstSchedule { options with groupSize := firstSize } containers).run
      .empty
    let second := (Run.runUnder secondSchedule { options with groupSize := secondSize }
      containers).run .empty
    (∃ stats, first.value = .ok stats ∧ second.value = .ok stats) ∧
    (∀ relation, (rowsOf relation first.events).Perm (rowsOf relation second.events)) ∧
    ∀ relation ∈ phantomRelations,
      rowsOf relation first.events = rowsOf relation second.events := by
  obtain ⟨allowed, ledgerOf, plain, classes⟩ := Run.exists_ledgers tolerant consistent
  have all_tolerant : ∀ size, Options.failFast { options with groupSize := size } = false :=
    fun _ => tolerant
  obtain ⟨first, early, first_holds, first_value, first_facts, early_eq⟩ :=
    Run.runUnder_leaves (all_tolerant firstSize) (classes firstSize) firstSchedule
  obtain ⟨second, others, second_holds, second_value, second_facts, others_eq⟩ :=
    Run.runUnder_leaves (all_tolerant secondSize) (classes secondSize) secondSchedule
  have same : first.hierarchy.Same second.hierarchy :=
    first_holds.represents.same second_holds.represents
      (first_holds.references_eq.trans second_holds.references_eq.symm)
  have early_perm : early.Perm others :=
    Multiset.coe_eq_coe.1 (early_eq.trans others_eq.symm)
  have ledger_plain := Run.plain_runLedger plain
  refine ⟨⟨_, first_value, ?_⟩, fun relation => ?_, fun relation phantom => ?_⟩
  · rw [second_value, same.phantomCounts_eq]
    rfl
  · unfold rowsOf
    rw [first_facts, second_facts, same.accessFact_eq, same.phantomFacts_eq]
    refine List.Perm.map _ (List.Perm.filter _ (early_perm.append (List.Perm.append_right _ ?_)))
    exact same.accesses.map _
  · unfold rowsOf
    rw [first_facts, second_facts,
      Run.filter_phantom phantom ledger_plain first_holds.represents early_eq,
      Run.filter_phantom phantom ledger_plain second_holds.represents others_eq,
      same.phantomFacts_eq]

/-- A container with two classes of the same super class. -/
def siblings : Container where
  name := "siblings.dex"
  types := #[.object "Absent"]
  strings := #[]
  fields := #[]
  methods := #[]
  protos := #[]
  methodHandles := #[]
  callSites := #[]
  classes := ["First", "Second"].map fun name =>
    { type := .object name
      superclass := some (.object "Parent")
      interfaces := []
      flags := ⟨0⟩
      annotations := []
      fields := []
      methods := []
      sourceFile := none }

/-- Two classes may be extracted by one worker or by two that take turns. -/
theorem runUnder_schedule_irrelevant_siblings :
    let first := (Run.runUnder [[1, 0, 1]] { Options.standard with groupSize := 1 } [siblings]).run
      .empty
    let second := (Run.runUnder [] { Options.standard with groupSize := 2 } [siblings]).run .empty
    (∃ stats, first.value = .ok stats ∧ second.value = .ok stats) ∧
    (∀ relation, (rowsOf relation first.events).Perm (rowsOf relation second.events)) ∧
    ∀ relation ∈ phantomRelations,
      rowsOf relation first.events = rowsOf relation second.events := by
  have parent : ∀ cls ∈ Run.accepted .standard siblings,
      cls.superName? = some (Descriptor.object "Parent").sourceName := by
    intro cls member
    obtain ⟨name, -, rfl⟩ := List.mem_map.1 (List.mem_of_mem_filter member)
    rfl
  have consistent : Run.Consistent .standard [siblings] := by
    intro first first_mem second second_mem cls cls_mem other other_mem _ superName otherName
      super_eq other_eq
    rw [List.mem_singleton.1 first_mem] at cls_mem
    rw [List.mem_singleton.1 second_mem] at other_mem
    rw [parent cls cls_mem] at super_eq
    rw [parent other other_mem] at other_eq
    exact Option.some.inj (super_eq.symm.trans other_eq)
  exact runUnder_schedule_irrelevant rfl consistent 1 2 [[1, 0, 1]] []

end DalvikFacts
