import DalvikFacts.Proofs.Run.Schedule
import DalvikFacts.Proofs.Run.Stopped
import DalvikFacts.Proofs.Run.Tolerance
import Mathlib.Data.List.Permutation

/-!
# Failing runs

When failures are to stop it, a run ends with the first container that has a failing class: the
classes of the containers before are translated, those of that container up to the first failing
one of each group, and the groups that failed are counted, whatever turns the workers take.  When
failures are not to stop it, no group ever fails.
-/

namespace DalvikFacts

theorem RunState.Tallies.report {container : Container} {allowed : String → String → Prop}
    {errors : Nat} {state : RunState} {cache : SignatureCache}
    (tallies : state.Tallies allowed errors) (knows : cache.Knows container) :
    RunState.Tallies allowed errors
      { state with hierarchy := (state.hierarchy.reportReferences container cache).1 } := by
  rw [Hierarchy.reportReferences_eq knows]
  exact ⟨tallies.errors_eq, tallies.linked, tallies.accesses⟩

namespace Run

variable {options : Options} {container : Container} {allowed : String → String → Prop}

/-- Whatever turns the workers take, a container leaves the rows of the classes up to the failing
ones, and counts the groups that fail. -/
theorem extractContainer_stops (failFast : options.failFast = true) {containers : List Container}
    (consistent : Consistent options containers) (member : container ∈ containers)
    (turns : List Nat) {state : RunState}
    (tallies : state.Tallies (GivesSuper options containers) 0) :
    let outcome := (extractContainer options container turns).run state
    outcome.state.Tallies (GivesSuper options containers) (failedGroups options container) ∧
      (factsOf outcome.events : Multiset Fact) =
        classFacts options container (translated options container) := by
  have workers : ∀ group ∈ groupsOf options.groupSize (accepted options container),
      Script.Leaves (WorkState.Tallies container (GivesSuper options containers)) (fun _ => True)
        (worker options container group) (stoppedLedger options container group) := by
    intro group group_mem
    refine tallies_worker failFast (fun cls cls_mem superName super_eq => ?_)
      consistent.givesSuper_functional
    exact ⟨container, member, cls, mem_accepted_of_mem group_mem cls_mem, rfl, super_eq⟩
  have start : WorkState.Tallies container (GivesSuper options containers) 0 ⟨.empty, state⟩ :=
    ⟨tallies, SignatureCache.knows_empty⟩
  obtain ⟨tallies_now, facts_eq⟩ := extractClasses_of_workers workers turns start
  obtain ⟨left_facts, left_failures⟩ :=
    @sum_stoppedLedger options container (groupsOf options.groupSize (accepted options container))
  rw [left_facts] at facts_eq
  have counted := tallies_now.toTallies
  rw [zero_add, left_failures] at counted
  have reported := counted.report tallies_now.cache
  unfold extractContainer
  cases container.methodHandles.isEmpty
  all_goals
    simp only [Bool.not_true, Bool.not_false, Bool.false_eq_true, if_true, if_false, Emit.run_bind,
      Emit.run_modifyGet, Emit.notice, Emit.run_event, factsOf_append, factsOf_cons_notice,
      factsOf_nil, List.nil_append, List.append_nil]
    exact ⟨reported, facts_eq.symm⟩

theorem extractContainers_skip (failFast : options.failFast = true) (schedule : Schedule)
    (containers : List Container) {state : RunState} (failed : 0 < state.errors) :
    ∃ events, (extractContainers options schedule containers).run state = ⟨0, state, events⟩ ∧
      factsOf events = [] := by
  induction containers generalizing schedule with
  | nil => exact ⟨[], rfl, rfl⟩
  | cons container rest induction =>
    obtain ⟨events, run_eq, facts_eq⟩ := induction schedule.tail
    refine ⟨.notice (.containerSkipped container.name) :: events, ?_, facts_eq⟩
    unfold extractContainers
    simp only [failFast, failed, Emit.run_bind, Emit.run_get, decide_true, Bool.and_self, if_true,
      Emit.notice, Emit.run_event, run_eq, List.nil_append, List.singleton_append]

theorem extractContainers_cons (schedule : Schedule) (container : Container)
    (rest : List Container) {state : RunState} (errors_eq : state.errors = 0) :
    let first := (extractContainer options container (schedule.headD [])).run state
    let others := (extractContainers options schedule.tail rest).run first.state
    (extractContainers options schedule (container :: rest)).run state =
      ⟨others.value + 1, others.state, first.events ++ others.events⟩ := by
  dsimp only
  rw [extractContainers]
  simp only [errors_eq, Nat.lt_irrefl, decide_false, Bool.and_false, Bool.false_eq_true, if_false,
    Emit.run_bind, Emit.run_get, Emit.run_pure, List.nil_append, List.append_nil]

theorem upToFailure_eq_self {group : List ClassDef}
    (sound : ∀ cls ∈ group, cls.fails container = false) : upToFailure container group = group := by
  induction group with
  | nil => rfl
  | cons cls rest induction =>
    rw [List.forall_mem_cons] at sound
    rw [upToFailure, sound.1, if_neg Bool.false_ne_true, induction sound.2]

theorem translated_eq_accepted
    (sound : ∀ cls ∈ accepted options container, cls.fails container = false) :
    translated options container = accepted options container := by
  have groups_sound : ∀ group ∈ groupsOf options.groupSize (accepted options container),
      upToFailure container group = group := fun group group_mem =>
    upToFailure_eq_self fun cls cls_mem => sound cls (mem_accepted_of_mem group_mem cls_mem)
  unfold translated
  rw [List.flatMap_def, List.map_congr_left groups_sound, List.map_id']
  exact flatten_groupsOf ..

theorem failedGroups_eq_zero
    (sound : ∀ cls ∈ accepted options container, cls.fails container = false) :
    failedGroups options container = 0 := by
  refine List.countP_eq_zero.2 fun group group_mem fails => ?_
  obtain ⟨cls, cls_mem, cls_fails⟩ := List.any_eq_true.1 fails
  rw [sound cls (mem_accepted_of_mem group_mem cls_mem)] at cls_fails
  cases cls_fails

theorem failedGroups_pos {cls : ClassDef} (cls_mem : cls ∈ accepted options container)
    (fails : cls.fails container = true) : 0 < failedGroups options container := by
  rw [← flatten_groupsOf options.groupSize (accepted options container)] at cls_mem
  obtain ⟨group, group_mem, cls_mem⟩ := List.mem_flatten.1 cls_mem
  exact List.countP_pos_iff.2 ⟨group, group_mem, List.any_eq_true.2 ⟨cls, cls_mem, fails⟩⟩

/-- Containers without failures leave the rows of all their classes, and those behind them are
extracted. -/
theorem extractContainers_append (failFast : options.failFast = true) {containers : List Container}
    (consistent : Consistent options containers) {before : List Container}
    (members : ∀ earlier ∈ before, earlier ∈ containers)
    (sound : ∀ earlier ∈ before, ∀ cls ∈ accepted options earlier, cls.fails earlier = false)
    (schedule : Schedule) {state : RunState}
    (tallies : state.Tallies (GivesSuper options containers) 0) :
    ∃ (middle : RunState) (events : List Event),
      middle.Tallies (GivesSuper options containers) 0 ∧
      (factsOf events : Multiset Fact) = (before.map fun earlier =>
        classFacts options earlier (accepted options earlier)).sum ∧
      ∀ rest,
        let last := (extractContainers options (schedule.drop before.length) rest).run middle
        (extractContainers options schedule (before ++ rest)).run state =
          ⟨last.value + before.length, last.state, events ++ last.events⟩ := by
  induction before generalizing schedule state with
  | nil => exact ⟨state, [], tallies, rfl, fun rest => rfl⟩
  | cons container before induction =>
    rw [List.forall_mem_cons] at members sound
    let first := (extractContainer options container (schedule.headD [])).run state
    obtain ⟨tallies_now, facts_eq⟩ :=
      extractContainer_stops failFast consistent members.1 (schedule.headD []) tallies
    rw [failedGroups_eq_zero sound.1] at tallies_now
    rw [translated_eq_accepted sound.1] at facts_eq
    obtain ⟨middle, events, tallies_last, rest_facts, run_eq⟩ :=
      induction members.2 sound.2 schedule.tail tallies_now
    refine ⟨middle, first.events ++ events, tallies_last, ?_, fun rest => ?_⟩
    · rw [factsOf_append, ← Multiset.coe_add, facts_eq, rest_facts, List.map_cons, List.sum_cons]
    · rw [List.cons_append, extractContainers_cons _ _ _ tallies.errors_eq, run_eq,
        List.drop_tail]
      dsimp only [first]
      rw [List.append_assoc]
      rfl

theorem extractContainers_failed (failFast : options.failFast = true) {containers : List Container}
    (consistent : Consistent options containers) (member : container ∈ containers)
    (failed : 0 < failedGroups options container) (schedule : Schedule) {state : RunState}
    (tallies : state.Tallies (GivesSuper options containers) 0) (later : List Container) :
    let last := (extractContainer options container (schedule.headD [])).run state
    ∃ events, (extractContainers options schedule (container :: later)).run state =
        ⟨1, last.state, last.events ++ events⟩ ∧ factsOf events = [] := by
  obtain ⟨tallies_now, -⟩ :=
    extractContainer_stops failFast consistent member (schedule.headD []) tallies
  obtain ⟨events, run_eq, facts_eq⟩ := extractContainers_skip failFast schedule.tail later
    (tallies_now.errors_eq ▸ failed)
  refine ⟨events, ?_, facts_eq⟩
  rw [extractContainers_cons _ _ _ tallies.errors_eq, run_eq]

theorem tallies_start {allowed : String → String → Prop} :
    RunState.Tallies allowed 0 ⟨.empty, .zero, 0⟩ where
  errors_eq := rfl
  linked cls superName super_eq := by simp [Hierarchy.superOf?, Hierarchy.empty] at super_eq
  accesses access member := by simp [Hierarchy.empty] at member

theorem runUnder_of_extractContainers {schedule : Schedule} {containers : List Container}
    {hierarchy : Hierarchy} {count : Nat} {state : RunState} {events : List Event}
    (run_eq : (extractContainers options schedule containers).run ⟨hierarchy, .zero, 0⟩ =
      ⟨count, state, events⟩) :
    let last := (finish options count).run state
    (runUnder schedule options containers).run hierarchy =
      ⟨last.value, last.state.hierarchy, events ++ last.events⟩ := by
  dsimp only [runUnder]
  rw [Emit.run_bind, run_eq]

theorem relation_mem_of_finish {count errors : Nat} {state : RunState}
    (tallies : state.Tallies allowed errors) :
    ∀ fact ∈ factsOf ((finish options count).run state).events,
      fact.relation ∈ accessRelations ++ phantomRelations := by
  intro fact member
  rw [(finish_facts options count state).2, List.mem_append] at member
  rw [List.mem_append]
  rcases member with access_mem | phantom_mem
  · obtain ⟨access, queued, rfl⟩ := List.mem_map.1 access_mem
    exact .inl (tallies.accesses access queued)
  · refine .inr ?_
    unfold Hierarchy.phantomFacts at phantom_mem
    split at phantom_mem
    · rcases List.mem_append.1 phantom_mem with type_mem | method_mem
      · obtain ⟨type, -, rfl⟩ := List.mem_map.1 type_mem
        exact .head _
      · obtain ⟨id, -, rfl⟩ := List.mem_map.1 method_mem
        exact .tail _ (.head _)
    · cases phantom_mem

theorem runUnder_sound (failFast : options.failFast = true) {containers : List Container}
    (consistent : Consistent options containers)
    (sound : ∀ container ∈ containers, ∀ cls ∈ accepted options container,
      cls.fails container = false) (schedule : Schedule) :
    ∃ stats, ((runUnder schedule options containers).run .empty).value = .ok stats := by
  obtain ⟨middle, events, tallies, -, run_eq⟩ := extractContainers_append failFast consistent
    (fun _ member => member) sound schedule tallies_start
  have all_run := run_eq []
  rw [List.append_nil] at all_run
  rw [runUnder_of_extractContainers all_run]
  have finished := (finish_facts options (0 + containers.length) middle).1
  rw [tallies.errors_eq, if_neg (Nat.lt_irrefl 0)] at finished
  exact ⟨_, finished⟩

/-- Up to its end, a run with a failing container does the same whatever is behind that one. -/
theorem extractContainers_until_failure (failFast : options.failFast = true)
    {containers before later : List Container} (consistent : Consistent options containers)
    (containers_eq : containers = before ++ container :: later)
    (sound : ∀ earlier ∈ before, ∀ cls ∈ accepted options earlier, cls.fails earlier = false)
    (failed : 0 < failedGroups options container) (schedule : Schedule) :
    ∃ (count : Nat) (state : RunState) (early : List Event),
      state.Tallies (GivesSuper options containers) (failedGroups options container) ∧
      (factsOf early : Multiset Fact) =
        (before.map fun earlier => classFacts options earlier (accepted options earlier)).sum +
          classFacts options container (translated options container) ∧
      ∀ rest, ∃ skipped, factsOf skipped = [] ∧
        (extractContainers options schedule (before ++ container :: rest)).run
          ⟨.empty, .zero, 0⟩ = ⟨count, state, early ++ skipped⟩ := by
  have before_mem : ∀ earlier ∈ before, earlier ∈ containers := by
    intro earlier member
    rw [containers_eq]
    exact List.mem_append_left _ member
  have container_mem : container ∈ containers := by
    rw [containers_eq]
    exact List.mem_append_right _ List.mem_cons_self
  obtain ⟨middle, events, tallies, facts_eq, run_eq⟩ :=
    extractContainers_append failFast consistent before_mem sound schedule tallies_start
  let turns := (schedule.drop before.length).headD []
  let last := (extractContainer options container turns).run middle
  obtain ⟨tallies_last, last_facts⟩ :=
    extractContainer_stops failFast consistent container_mem turns tallies
  refine ⟨1 + before.length, last.state, events ++ last.events, tallies_last, ?_, fun rest => ?_⟩
  · rw [factsOf_append, ← Multiset.coe_add, facts_eq, last_facts]
  · obtain ⟨skipped, rest_eq, skipped_eq⟩ := extractContainers_failed failFast consistent
      container_mem failed (schedule.drop before.length) tallies rest
    refine ⟨skipped, skipped_eq, ?_⟩
    rw [run_eq, rest_eq, List.append_assoc]

/-- A run with a failing container fails, and does what it does without those behind. -/
theorem runUnder_stops (failFast : options.failFast = true) {before later : List Container}
    (consistent : Consistent options (before ++ container :: later))
    (sound : ∀ earlier ∈ before, ∀ cls ∈ accepted options earlier, cls.fails earlier = false)
    (fails : ∃ cls ∈ accepted options container, cls.fails container = true)
    (schedule : Schedule) :
    let outcome := (runUnder schedule options (before ++ container :: later)).run .empty
    let alone := (runUnder schedule options (before ++ [container])).run .empty
    outcome.value = .error (.failed (failedGroups options container)) ∧
      (outcome.value = alone.value ∧ outcome.state = alone.state ∧
        factsOf outcome.events = factsOf alone.events) ∧
      ∃ early late, factsOf outcome.events = early ++ late ∧
        (early : Multiset Fact) =
          (before.map fun earlier => classFacts options earlier (accepted options earlier)).sum +
            classFacts options container (translated options container) ∧
        ∀ fact ∈ late, fact.relation ∈ accessRelations ++ phantomRelations := by
  obtain ⟨cls, cls_mem, cls_fails⟩ := fails
  have failed := failedGroups_pos cls_mem cls_fails
  obtain ⟨count, state, early, tallies, early_eq, run_eq⟩ :=
    extractContainers_until_failure failFast consistent rfl sound failed schedule
  obtain ⟨skipped, skipped_eq, all_run⟩ := run_eq later
  obtain ⟨none_skipped, none_eq, alone_run⟩ := run_eq []
  have finished := (finish_facts options count state).1
  rw [tallies.errors_eq, if_pos failed] at finished
  let last := (finish options count).run state
  have rows_eq : ∀ {skipped : List Event}, factsOf skipped = [] →
      factsOf (early ++ skipped ++ last.events) = factsOf early ++ factsOf last.events := by
    intro skipped skipped_eq
    rw [factsOf_append, factsOf_append, skipped_eq, List.append_nil]
  dsimp only
  rw [runUnder_of_extractContainers all_run, runUnder_of_extractContainers alone_run]
  exact ⟨finished, ⟨rfl, rfl, (rows_eq skipped_eq).trans (rows_eq none_eq).symm⟩, factsOf early,
    factsOf last.events, rows_eq skipped_eq, early_eq, relation_mem_of_finish tallies⟩

theorem exists_failing_container {containers : List Container}
    (fails : ¬ ∀ container ∈ containers, ∀ cls ∈ accepted options container,
      cls.fails container = false) :
    ∃ before container later, containers = before ++ container :: later ∧
      (∀ earlier ∈ before, ∀ cls ∈ accepted options earlier, cls.fails earlier = false) ∧
      ∃ cls ∈ accepted options container, cls.fails container = true := by
  induction containers with
  | nil => exact absurd (by simp) fails
  | cons container rest induction =>
    by_cases sound : ∀ cls ∈ accepted options container, cls.fails container = false
    · have rest_fails : ¬ ∀ other ∈ rest, ∀ cls ∈ accepted options other,
          cls.fails other = false := fun rest_sound => fails <| by
        rw [List.forall_mem_cons]
        exact ⟨sound, rest_sound⟩
      obtain ⟨before, failing, later, rest_eq, before_sound, cls_fails⟩ := induction rest_fails
      refine ⟨container :: before, failing, later, by rw [rest_eq, List.cons_append], ?_, cls_fails⟩
      rw [List.forall_mem_cons]
      exact ⟨sound, before_sound⟩
    · refine ⟨[], container, rest, rfl, by simp, ?_⟩
      simpa using sound

end Run

/-- Failures never fail a run that they are not to stop.  A run that they are to stop succeeds just
if no class fails that it takes, provided that no two classes give different super classes to one
name.  Otherwise it fails with the number of groups of the first failing container that have a
failing class.  It then does what it does without the containers behind that one: apart from field
accesses and phantom entities, which the end of a run writes, the rows are those of all classes of
the containers before, and of the classes of the failing one up to the first failing class of each
group.  All this holds for each size of the groups and each schedule. -/
theorem runUnder_failures (options : Options) (containers : List Container)
    (schedule : Schedule) :
    (options.failFast = false → ∀ hierarchy, ∃ stats,
      ((Run.runUnder schedule options containers).run hierarchy).value = .ok stats) ∧
    (options.failFast = true → Run.Consistent options containers →
      let outcome := (Run.runUnder schedule options containers).run .empty
      ((∃ stats, outcome.value = .ok stats) ↔ ∀ container ∈ containers,
        ∀ cls ∈ Run.accepted options container, cls.fails container = false) ∧
      ∀ before container later, containers = before ++ container :: later →
        (∀ earlier ∈ before, ∀ cls ∈ Run.accepted options earlier, cls.fails earlier = false) →
        (∃ cls ∈ Run.accepted options container, cls.fails container = true) →
        let alone := (Run.runUnder schedule options (before ++ [container])).run .empty
        outcome.value = .error (.failed (Run.failedGroups options container)) ∧
        (outcome.value = alone.value ∧ outcome.state = alone.state ∧
          factsOf outcome.events = factsOf alone.events) ∧
        ∃ early late, factsOf outcome.events = early ++ late ∧
          (early : Multiset Fact) = (before.map fun earlier =>
              Run.classFacts options earlier (Run.accepted options earlier)).sum +
            Run.classFacts options container (Run.translated options container) ∧
          ∀ fact ∈ late, fact.relation ∈ accessRelations ++ phantomRelations) := by
  constructor
  · intro tolerant hierarchy
    have kept := Run.errors_extractContainers tolerant schedule containers ⟨hierarchy, .zero, 0⟩
    have finished := (Run.finish_facts options
      ((Run.extractContainers options schedule containers).run ⟨hierarchy, .zero, 0⟩).value
      ((Run.extractContainers options schedule containers).run ⟨hierarchy, .zero, 0⟩).state).1
    rw [kept, if_neg (Nat.lt_irrefl 0)] at finished
    exact ⟨_, finished⟩
  intro failFast consistent outcome
  refine ⟨⟨fun succeeds => ?_, fun sound => Run.runUnder_sound failFast consistent sound schedule⟩,
    ?_⟩
  · by_contra fails
    obtain ⟨before, container, later, rfl, sound, cls_fails⟩ := Run.exists_failing_container fails
    obtain ⟨stats, value_eq⟩ := succeeds
    obtain ⟨error_eq, -⟩ := Run.runUnder_stops failFast consistent sound cls_fails schedule
    rw [error_eq] at value_eq
    cases value_eq
  · rintro before container later rfl sound cls_fails
    exact Run.runUnder_stops failFast consistent sound cls_fails schedule

/-- A container whose second and fourth class have fields that are missing. -/
def faulty : Container where
  name := "faulty.dex"
  types := #[]
  strings := #[]
  fields := #[]
  methods := #[]
  protos := #[]
  methodHandles := #[]
  callSites := #[]
  classes := [("Good", []), ("Bad", [7]), ("After", []), ("Worse", [9])].map fun (name, fields) =>
    { type := .object name
      superclass := some (.object "Parent")
      interfaces := []
      flags := ⟨0⟩
      annotations := []
      fields := fields.map fun field =>
        { field, flags := ⟨0⟩, initialValue := none, annotations := [] }
      methods := []
      sourceFile := none }

/-- Both failing classes of a container end their groups, and the container behind is left out. -/
theorem runUnder_failures_faulty :
    let options := { Options.standard with groupSize := 3, failFast := true }
    let containers := [siblings, faulty, siblings]
    let outcome := (Run.runUnder [[], [1, 0]] options containers).run .empty
    let alone := (Run.runUnder [[], [1, 0]] options [siblings, faulty]).run .empty
    (options.failFast = true ∧ Run.Consistent options containers) ∧
    outcome.value = .error (.failed 2) ∧ factsOf outcome.events = factsOf alone.events ∧
      (Run.translated options faulty).map ClassDef.name = ["Good", "Bad", "Worse"] := by
  intro options containers outcome alone
  have parent : ∀ container ∈ containers, ∀ cls ∈ Run.accepted options container,
      cls.superName? = some (Descriptor.object "Parent").sourceName := by
    intro container container_mem cls member
    have cls_mem := List.mem_of_mem_filter member
    have places : container = siblings ∨ container = faulty ∨ container = siblings := by
      simpa [containers] using container_mem
    rcases places with rfl | rfl | rfl <;> obtain ⟨_, -, rfl⟩ := List.mem_map.1 cls_mem <;> rfl
  have consistent : Run.Consistent options containers := by
    intro first first_mem second second_mem cls cls_mem other other_mem _ superName otherName
      super_eq other_eq
    rw [parent first first_mem cls cls_mem] at super_eq
    rw [parent second second_mem other other_mem] at other_eq
    exact Option.some.inj (super_eq.symm.trans other_eq)
  have sound : ∀ earlier ∈ [siblings], ∀ cls ∈ Run.accepted options earlier,
      cls.fails earlier = false := by
    intro earlier earlier_mem cls member
    cases List.mem_singleton.1 earlier_mem
    obtain ⟨name, -, rfl⟩ := List.mem_map.1 (List.mem_of_mem_filter member)
    rfl
  have fails : ∃ cls ∈ Run.accepted options faulty, cls.fails faulty = true := by
    have any : (Run.accepted options faulty).any (·.fails faulty) = true := by cbv
    exact List.any_eq_true.1 any
  have groups_eq : Run.failedGroups options faulty = 2 := by cbv
  have translated_eq : (Run.translated options faulty).map ClassDef.name =
      ["Good", "Bad", "Worse"] := by cbv
  obtain ⟨error_eq, ⟨-, -, facts_eq⟩, -⟩ :=
    ((runUnder_failures options containers [[], [1, 0]]).2 rfl consistent).2 [siblings] faulty
      [siblings] rfl sound fails
  exact ⟨⟨rfl, consistent⟩, error_eq.trans (by rw [groups_eq]), facts_eq, translated_eq⟩

end DalvikFacts
