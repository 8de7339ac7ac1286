import DalvikFacts.Proofs.Hierarchy.History
import DalvikFacts.Proofs.Run.ClassAccount
import DalvikFacts.Proofs.Run.FailFast

/-!
# How runs end

A run may start on any hierarchy, also on one that earlier runs have left.  Whatever turns its
workers take, and whether failures are to stop it or not, its end is told by one account, which is
made of what is left of each class that is extracted.
-/

namespace DalvikFacts

theorem Ledger.accesses_ofAccesses (accesses : List FieldAccess) :
    (Ledger.ofAccesses accesses).accesses = accesses := by
  unfold Ledger.accesses ofAccesses
  rw [Multiset.filterMap_coe, List.filterMap_map]
  exact congrArg _ List.filterMap_some

namespace Hierarchy

/-- The links and definitions of a hierarchy. -/
def definitions (hierarchy : Hierarchy) : Ledger :=
  ((hierarchy.supers.toList.map fun link => Contribution.link link.1 link.2) ++
    (hierarchy.definedClasses.toList.map Contribution.declared ++
      (hierarchy.definedFields.toList.map Contribution.field ++
        hierarchy.definedMethods.toList.map Contribution.method)) : List Contribution)

/-- The entries of a hierarchy. -/
def ledger (hierarchy : Hierarchy) : Ledger :=
  hierarchy.definitions + .ofAccesses hierarchy.accesses.toList

theorem mem_definitions {hierarchy : Hierarchy} {entry : Contribution} :
    entry ∈ hierarchy.definitions ↔
      (∃ cls superName, hierarchy.superOf? cls = some superName ∧ .link cls superName = entry) ∨
      (∃ cls ∈ hierarchy.definedClasses, .declared cls = entry) ∨
      (∃ field ∈ hierarchy.definedFields, .field field = entry) ∨
      ∃ id ∈ hierarchy.definedMethods, .method id = entry := by
  simp [definitions, superOf?]

theorem represents_ledger (hierarchy : Hierarchy) :
    RunState.Represents ⟨hierarchy, .zero, 0⟩ hierarchy.ledger where
  supers cls superName := by simp [ledger, mem_definitions, Ledger.ofAccesses]
  classes cls := by simp [ledger, mem_definitions, Ledger.ofAccesses]
  fields field := by simp [ledger, mem_definitions, Ledger.ofAccesses]
  methods id := by simp [ledger, mem_definitions, Ledger.ofAccesses]
  accesses := by
    have idle : hierarchy.definitions.accesses = 0 := by
      refine Ledger.accesses_eq_zero _ fun entry member => ?_
      rcases mem_definitions.1 member with
        ⟨_, _, -, rfl⟩ | ⟨_, -, rfl⟩ | ⟨_, -, rfl⟩ | ⟨_, -, rfl⟩ <;> rfl
    rw [ledger, Ledger.accesses_add, idle, zero_add, Ledger.accesses_ofAccesses]
  totals := by
    refine (Ledger.totals_eq_zero _ fun entry member => ?_).symm
    rcases Multiset.mem_add.1 member with member | member
    · rcases mem_definitions.1 member with
        ⟨_, _, -, rfl⟩ | ⟨_, -, rfl⟩ | ⟨_, -, rfl⟩ | ⟨_, -, rfl⟩ <;> rfl
    · obtain ⟨access, -, rfl⟩ := List.mem_map.1 (Multiset.mem_coe.1 member)
      rfl

end Hierarchy

namespace Run

variable {options : Options} {container : Container} {allowed : String → String → Prop}
  {references : References} {before : Ledger} {state : RunState}

theorem extractClasses_accounts (turns : List Nat)
    (all_allowed : ∀ cls ∈ accepted options container, cls.Linkable allowed)
    (records : state.Records allowed references before) :
    let outcome := (extractClasses options container turns).run state
    ∃ account,
      MadeOf ((accepted options container).map (ClassDef.Leaves options container)) account ∧
      outcome.value.Knows container ∧
      outcome.state.Records allowed references (before + account.1) ∧
      tidingsOf outcome.events = account.2 := by
  let groups := groupsOf options.groupSize (accepted options container)
  let demand (group : List ClassDef) : Account → Prop :=
    MadeOf (group.map (ClassDef.Leaves options container))
  let pool := groups.map fun group => (worker options container group, demand group)
  have accounts : ∀ member ∈ pool, Work.Accounts container allowed references member.1
      fun _ => member.2 := by
    intro member member_mem
    obtain ⟨group, group_mem, rfl⟩ := List.mem_map.1 member_mem
    exact accounts_worker fun cls cls_mem => all_allowed cls (mem_accepted_of_mem group_mem cls_mem)
  have start : WorkState.Records container allowed references before ⟨.empty, state⟩ :=
    ⟨records, SignatureCache.knows_empty⟩
  obtain ⟨account, made, records_last, told⟩ := Script.interleave_accounts turns accounts start
  have workers_eq : pool.map Prod.fst = groups.map (worker options container) := List.map_map ..
  have demands_eq : pool.map Prod.snd =
      (groups.map (List.map (ClassDef.Leaves options container))).map MadeOf := by
    rw [List.map_map, List.map_map]
    rfl
  rw [workers_eq] at records_last told
  rw [demands_eq] at made
  have whole := made.flatten
  rw [← List.map_flatten, flatten_groupsOf] at whole
  exact ⟨account, whole, records_last.cache, records_last.toRecords, told⟩

/-- Whatever turns the workers take, something is left of each class of a container, and the
references are registered. -/
theorem extractContainer_accounts (turns : List Nat)
    (all_allowed : ∀ cls ∈ accepted options container, cls.Linkable allowed)
    (records : state.Records allowed references before) :
    let outcome := (extractContainer options container turns).run state
    ∃ account,
      MadeOf ((accepted options container).map (ClassDef.Leaves options container)) account ∧
      outcome.state.Records allowed (references.report container) (before + account.1) ∧
      tidingsOf outcome.events = account.2 := by
  obtain ⟨account, made, knows, records_classes, told⟩ :=
    extractClasses_accounts turns all_allowed records
  refine ⟨account, made, ?_, ?_⟩
  · have reported := RunState.Records.report knows records_classes
    unfold extractContainer
    cases container.methodHandles.isEmpty <;> exact reported
  · unfold extractContainer
    cases container.methodHandles.isEmpty
    all_goals
      simp only [Bool.not_true, Bool.not_false, Bool.false_eq_true, if_true, if_false,
        Emit.run_bind, Emit.run_modifyGet, Emit.notice, Emit.run_event, tidingsOf_append, told]
      simp [tidingsOf, Event.isTiding, Notice.skipped?]

/-- The classes of containers that are extracted. -/
def classesOf (options : Options) (containers : List Container) : List (Container × ClassDef) :=
  containers.flatMap fun container => (accepted options container).map (container, ·)

theorem mem_classesOf {containers : List Container} {entry : Container × ClassDef} :
    entry ∈ classesOf options containers ↔
      entry.1 ∈ containers ∧ entry.2 ∈ accepted options entry.1 := by
  simp only [classesOf, List.mem_flatMap, List.mem_map]
  constructor
  · rintro ⟨container, container_mem, cls, cls_mem, rfl⟩
    exact ⟨container_mem, cls_mem⟩
  · rintro ⟨container_mem, cls_mem⟩
    exact ⟨entry.1, container_mem, entry.2, cls_mem, rfl⟩

/-- What may be left of a class of a container. -/
def LeavesOf (options : Options) (entry : Container × ClassDef) : Account → Prop :=
  entry.2.Leaves options entry.1

/-- Whatever turns the workers take on each container, something is left of each class. -/
theorem extractContainers_accounts (schedule : Schedule) {containers : List Container}
    (all_allowed : ∀ entry ∈ classesOf options containers, entry.2.Linkable allowed)
    (records : state.Records allowed references before) :
    let outcome := (extractContainers options schedule containers).run state
    ∃ account last, MadeOf ((classesOf options containers).map (LeavesOf options)) account ∧
      outcome.state.Records allowed last (before + account.1) ∧
      tidingsOf outcome.events = account.2 ∧
      (options.failFast = false → outcome.value = containers.length ∧
        last = referencesAfter references containers) := by
  induction containers generalizing schedule state references before with
  | nil =>
    refine ⟨0, references, .nil, ?_, rfl, fun _ => ⟨rfl, rfl⟩⟩
    rw [Prod.fst_zero, add_zero]
    exact records
  | cons container rest induction =>
    have here : ∀ cls ∈ accepted options container, cls.Linkable allowed := fun cls member =>
      all_allowed (container, cls) (mem_classesOf.2 ⟨List.mem_cons_self, member⟩)
    have there : ∀ entry ∈ classesOf options rest, entry.2.Linkable allowed := fun entry member =>
      all_allowed entry (List.mem_append_right _ member)
    have classes_eq : (classesOf options (container :: rest)).map (LeavesOf options) =
        (accepted options container).map (ClassDef.Leaves options container) ++
          (classesOf options rest).map (LeavesOf options) := by
      rw [classesOf, List.flatMap_cons, List.map_append, List.map_map]
      rfl
    rw [classes_eq]
    unfold extractContainers
    cases stopped : options.failFast && decide (0 < state.errors) with
    | true =>
      have failFast : options.failFast = true := (Bool.and_eq_true_iff.1 stopped).1
      obtain ⟨account, last, made, records_last, told, -⟩ := induction schedule.tail there records
      have untouched : MadeOf ((accepted options container).map
          (ClassDef.Leaves options container)) 0 :=
        .zero (List.forall_mem_map.2 fun cls _ => .untouched failFast)
      simp only [Emit.run_bind, Emit.run_get, stopped, if_true, Emit.notice, Emit.run_event,
        List.nil_append, tidingsOf_append]
      refine ⟨account, last, ?_, records_last, ?_, fun tolerant => ?_⟩
      · rw [← zero_add account]
        exact untouched.append made
      · rw [told]
        exact zero_add account.2
      · rw [failFast] at tolerant
        cases tolerant
    | false =>
      obtain ⟨part, part_made, records_now, part_told⟩ :=
        extractContainer_accounts (schedule.headD []) here records
      obtain ⟨others, last, made, records_last, told, tolerantly⟩ :=
        induction schedule.tail there records_now
      simp only [Emit.run_bind, Emit.run_get, stopped, Bool.false_eq_true, if_false, Emit.run_pure,
        List.nil_append, List.append_nil, tidingsOf_append]
      refine ⟨part + others, last, part_made.append made, ?_, ?_, fun tolerant => ?_⟩
      · rw [Prod.fst_add, ← add_assoc]
        exact records_last
      · rw [part_told, told]
        rfl
      · obtain ⟨count_eq, last_eq⟩ := tolerantly tolerant
        exact ⟨by rw [count_eq, List.length_cons], last_eq⟩

/-- How a run on a hierarchy ends: an account is left that is made of what is left of each class,
and from the state behind it the conclusion is written. -/
structure Ends (options : Options) (containers : List Container) (hierarchy : Hierarchy)
    (outcome : Emitted Hierarchy (Except ExtractionError Stats)) (account : Account)
    (last : RunState) : Prop where
  made : MadeOf ((classesOf options containers).map (LeavesOf options)) account
  represents : last.Represents (hierarchy.ledger + account.1)
  linked : ∀ cls superName, last.hierarchy.superOf? cls = some superName →
    hierarchy.superOf? cls = some superName ∨ GivesSuper options containers cls superName
  facts_eq : (factsOf outcome.events : Multiset Fact) = account.facts +
    (last.hierarchy.accesses.toList.map last.hierarchy.accessFact ++
      last.hierarchy.phantomFacts options.phantoms : List Fact)
  skipped_eq : (skippedOf outcome.events : Multiset (String × ExtractionError)) = account.skipped
  state_eq : outcome.state = { last.hierarchy with accesses := #[] }
  value_eq : options.failFast = false → outcome.value = .ok
    { containers := containers.length
      totals := last.totals
      phantoms := last.hierarchy.phantomCounts }
  references_eq : options.failFast = false →
    last.hierarchy.references = referencesAfter hierarchy.references containers

theorem Ends.superOf?_of_start {containers : List Container} {hierarchy : Hierarchy}
    {outcome : Emitted Hierarchy (Except ExtractionError Stats)} {account : Account}
    {last : RunState} (ends : Ends options containers hierarchy outcome account last)
    {cls superName : String} (super_eq : hierarchy.superOf? cls = some superName) :
    last.hierarchy.superOf? cls = some superName := by
  rw [ends.represents.supers, Multiset.mem_add]
  exact .inl ((hierarchy.represents_ledger.supers cls superName).1 super_eq)

theorem finish_skips (options : Options) (count : Nat) (state : RunState) :
    let outcome := (finish options count).run state
    outcome.state.hierarchy = { state.hierarchy with accesses := #[] } ∧
      skippedOf outcome.events = [] := by
  unfold finish
  by_cases errors : 0 < state.errors <;> by_cases failures : 0 < state.totals.failures
  all_goals
    simp only [Emit.zoom, Hierarchy.run_conclude, Emit.notice, errors, failures, Emit.run_bind,
      Emit.run_get, Emit.run_event, Emit.run_pure, if_true, if_false, true_and]
    simp [skippedOf, noticesOf, Function.comp_def, Event.notice?, Notice.skipped?]

theorem exists_ends (options : Options) (schedule : Schedule) (containers : List Container)
    (hierarchy : Hierarchy) :
    ∃ account last, Ends options containers hierarchy
      ((runUnder schedule options containers).run hierarchy) account last := by
  let start : RunState := ⟨hierarchy, .zero, 0⟩
  let early := (extractContainers options schedule containers).run start
  -- super classes are known from the start, or given by a class that is extracted
  let allowed (cls superName : String) : Prop :=
    hierarchy.superOf? cls = some superName ∨ GivesSuper options containers cls superName
  have records : start.Records allowed hierarchy.references hierarchy.ledger :=
    { represents := hierarchy.represents_ledger
      linked := fun cls superName member =>
        .inl ((hierarchy.represents_ledger.supers cls superName).2 member)
      references_eq := rfl }
  have all_allowed : ∀ entry ∈ classesOf options containers, entry.2.Linkable allowed := by
    intro entry entry_mem superName super_eq
    obtain ⟨container_mem, cls_mem⟩ := mem_classesOf.1 entry_mem
    exact .inr ⟨entry.1, container_mem, entry.2, cls_mem, rfl, super_eq⟩
  obtain ⟨account, references, made, records_last, told, tolerantly⟩ :=
    extractContainers_accounts schedule all_allowed records
  have run_eq := @runUnder_of_extractContainers options schedule containers hierarchy early.value
    early.state early.events rfl
  obtain ⟨value_eq, facts_eq⟩ := finish_facts options early.value early.state
  refine ⟨account, early.state, ?_⟩
  rw [run_eq]
  exact
    { made
      represents := records_last.represents
      linked := fun cls superName super_eq => records_last.linked cls superName
        ((records_last.represents.supers cls superName).1 super_eq)
      facts_eq := by
        rw [factsOf_append, facts_eq, ← Multiset.coe_add, Account.facts_eq told]
      skipped_eq := by
        rw [skippedOf_append, (finish_skips options early.value early.state).2, List.append_nil,
          Account.skipped_eq told]
      state_eq := (finish_skips options early.value early.state).1
      value_eq := fun tolerant => by
        have errors_eq : early.state.errors = 0 :=
          errors_extractContainers tolerant schedule containers start
        rw [value_eq, errors_eq, if_neg (Nat.lt_irrefl 0), (tolerantly tolerant).1]
      references_eq := fun tolerant =>
        records_last.references_eq.trans (tolerantly tolerant).2 }

end Run

end DalvikFacts
