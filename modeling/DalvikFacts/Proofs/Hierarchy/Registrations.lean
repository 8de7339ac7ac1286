import DalvikFacts.Proofs.Hierarchy.History

/-!
# The order of registrations

Everything that a registry holds can be told from the commands that it was given, and all of it but
the queue and the referenced fields can be told from their set.  So the order of the registrations
before a conclusion does not matter, as long as no class is given two super classes: of two links of
one class only the first would count.
-/

namespace DalvikFacts

namespace Hierarchy

namespace Command

/-- The class that a command registers with its fields. -/
def definedClass? : Command → Option String
  | defineFields cls _ => some cls
  | _ => none

/-- The methods that a command registers as defined. -/
def definedMethods : Command → List String
  | defineMethods ids => ids
  | _ => []

/-- The field that a command refers to. -/
def referredField? : Command → Option FieldSig
  | referField field => some field
  | _ => none

/-- The class that a command refers to; references to other types do not count. -/
def referredType? : Command → Option String
  | referType type => if type.isClass then some type.sourceName else none
  | _ => none

/-- The method that a command refers to. -/
def referredMethod? : Command → Option String
  | referMethod id => some id
  | _ => none

/-- What a command enters apart from links, fields and accesses. -/
theorem exists_state_perform (command : Command) (hierarchy : Hierarchy) :
    ∃ supers fields accesses, (command.perform.run hierarchy).state =
      { supers := supers
        definedFields := fields
        accesses := accesses
        definedClasses := hierarchy.definedClasses.insertMany command.definedClass?.toList
        definedMethods := hierarchy.definedMethods.insertMany command.definedMethods
        referencedFields := hierarchy.referencedFields ++ command.referredField?.toList
        referencedTypes := hierarchy.referencedTypes.insertMany command.referredType?.toList
        referencedMethods :=
          hierarchy.referencedMethods.insertMany command.referredMethod?.toList } := by
  cases command with
  | linkSuper cls superName =>
    rw [state_perform_linkSuper]
    split <;> exact ⟨_, _, _, rfl⟩
  | referType type =>
    change ∃ _ _ _, Hierarchy.referType hierarchy type = _
    rw [Hierarchy.referType, referredType?]
    split <;> exact ⟨_, _, _, rfl⟩
  | conclude phantoms =>
    rw [state_perform_conclude]
    exact ⟨_, _, _, rfl⟩
  | _ => exact ⟨_, _, _, rfl⟩

end Command

/-- A registry holds all that some commands have told it. -/
structure Knows (hierarchy : Hierarchy) (commands : List Command) : Prop
    extends hierarchy.Holds commands where
  classes : ∀ cls, cls ∈ hierarchy.definedClasses ↔
    ∃ command ∈ commands, command.definedClass? = some cls
  methods : ∀ id, id ∈ hierarchy.definedMethods ↔ ∃ command ∈ commands, id ∈ command.definedMethods
  referredFields : hierarchy.referencedFields.toList = commands.filterMap Command.referredField?
  referredTypes : ∀ type, type ∈ hierarchy.referencedTypes ↔
    ∃ command ∈ commands, command.referredType? = some type
  referredMethods : ∀ id, id ∈ hierarchy.referencedMethods ↔
    ∃ command ∈ commands, command.referredMethod? = some id

/-- What a registry knows after one more command. -/
theorem Knows.perform {hierarchy : Hierarchy} {commands : List Command}
    (knows : hierarchy.Knows commands) (command : Command) :
    (command.perform.run hierarchy).state.Knows (commands ++ [command]) := by
  obtain ⟨supers, fields, accesses, state_eq⟩ := command.exists_state_perform hierarchy
  constructor
  case toHolds => exact knows.toHolds.perform command
  case classes =>
    intro cls
    simp [state_eq, knows.classes]
  case methods =>
    intro id
    simp [state_eq, knows.methods]
  case referredFields =>
    cases field_eq : command.referredField? <;> simp [state_eq, field_eq, knows.referredFields]
  case referredTypes =>
    intro type
    simp [state_eq, knows.referredTypes]
  case referredMethods =>
    intro id
    simp [state_eq, knows.referredMethods]

theorem knows_empty : empty.Knows [] where
  toHolds := holds_empty
  classes _ := by simp [empty]
  methods _ := by simp [empty]
  referredFields := rfl
  referredTypes _ := by simp [empty]
  referredMethods _ := by simp [empty]

theorem knows_history (commands : List Command) : (history commands).state.Knows commands := by
  induction commands using List.reverseRecOn with
  | nil => exact knows_empty
  | append_singleton commands command induction =>
    rw [history_concat]
    exact induction.perform command

/-! ## Links without contradiction -/

theorem Command.link?_eq_some_iff {command : Command} {cls superName : String} :
    command.link? cls = some superName ↔ command = .linkSuper cls superName := by
  cases command <;> simp [link?]

/-- No class is given two different super classes. -/
def Consistent (commands : List Command) : Prop :=
  ∀ cls first second, .linkSuper cls first ∈ commands → .linkSuper cls second ∈ commands →
    first = second

theorem Consistent.linkIn?_eq_some_iff {commands : List Command} (consistent : Consistent commands)
    {cls superName : String} :
    linkIn? commands cls = some superName ↔ .linkSuper cls superName ∈ commands := by
  have linked : ∀ other, linkIn? commands cls = some other → .linkSuper cls other ∈ commands := by
    intro other other_eq
    obtain ⟨command, member, link_eq⟩ := List.exists_of_findSome?_eq_some other_eq
    rwa [Command.link?_eq_some_iff.1 link_eq] at member
  constructor
  · exact linked superName
  · intro member
    have some_link : (linkIn? commands cls).isSome := by
      apply List.findSome?_isSome_iff.2
      exact ⟨_, member, by simp [Command.link?]⟩
    obtain ⟨other, other_eq⟩ := Option.isSome_iff_exists.1 some_link
    rw [other_eq, consistent cls other superName (linked other other_eq) member]

/-! ## Registries that were told the same -/

section Same

variable {first second : Hierarchy} {commands others : List Command}
  (first_knows : first.Knows commands) (second_knows : second.Knows others)
  (same : ∀ command, command ∈ commands ↔ command ∈ others)

include first_knows second_knows same

/-- Links and definitions are told by the set of the commands. -/
theorem Knows.agrees (consistent : Consistent commands) : first.Agrees second where
  supers cls := by
    have other_consistent : Consistent others := by
      simpa only [Consistent, same] using consistent
    rw [first_knows.supers, second_knows.supers]
    apply Option.ext
    intro superName
    rw [consistent.linkIn?_eq_some_iff, other_consistent.linkIn?_eq_some_iff, same]
  classes cls := by
    rw [Bool.eq_iff_iff, Std.HashSet.contains_iff_mem, Std.HashSet.contains_iff_mem,
      first_knows.classes, second_knows.classes]
    simp only [same]
  fields field := by
    let reference : FieldSig :=
      { id := "", owner := field.owner, name := field.name, type := field.type }
    have defines_eq : definesIn commands reference field.owner =
        definesIn others reference field.owner := by
      rw [Bool.eq_iff_iff, definesIn, definesIn, List.any_eq_true, List.any_eq_true]
      simp only [same]
    rw [← first_knows.fields, ← second_knows.fields] at defines_eq
    exact defines_eq
  methods id := by
    rw [Bool.eq_iff_iff, Std.HashSet.contains_iff_mem, Std.HashSet.contains_iff_mem,
      first_knows.methods, second_knows.methods]
    simp only [same]

theorem Knows.toList_referencedTypes_eq :
    first.referencedTypes.toList = second.referencedTypes.toList := by
  apply Std.TreeSet.Equiv.toList_eq
  apply Std.TreeSet.Equiv.of_forall_mem_iff
  intro type
  rw [first_knows.referredTypes, second_knows.referredTypes]
  simp only [same]

theorem Knows.toList_referencedMethods_eq :
    first.referencedMethods.toList = second.referencedMethods.toList := by
  apply Std.TreeSet.Equiv.toList_eq
  apply Std.TreeSet.Equiv.of_forall_mem_iff
  intro id
  rw [first_knows.referredMethods, second_knows.referredMethods]
  simp only [same]

end Same

/-! ## Registrations before a conclusion -/

/-- Registrations, then a conclusion, in a registry that knows nothing yet. -/
def concluded (registrations : List Command) (phantoms : Bool) : Emitted Hierarchy PhantomCounts :=
  (do
    registrations.forM Command.perform
    conclude phantoms : Emit Hierarchy PhantomCounts).run .empty

section Registrations

variable {registrations : List Command}
  (registers : ∀ command ∈ registrations, command.phantoms? = none)

include registers

theorem conclusions_of_registrations : conclusions registrations = [] := by
  rw [conclusions, List.filterMap_eq_nil_iff]
  rintro ⟨command, position⟩ member
  have inside : command ∈ registrations := (List.mem_zipIdx' member).2 ▸ List.getElem_mem _
  change command.phantoms?.map _ = none
  rw [registers command inside]
  rfl

theorem waiting_of_registrations :
    waiting registrations = registrations.flatMap Command.queued := by
  rw [waiting, List.rtakeWhile_eq_self_iff.2]
  intro command member
  rw [registers command member]
  rfl

theorem concluded_facts (phantoms : Bool) :
    (concluded registrations phantoms).value = (history registrations).state.phantomCounts ∧
      factsOf (concluded registrations phantoms).events =
        (registrations.flatMap Command.queued).map (history registrations).state.accessFact ++
          (history registrations).state.phantomFacts phantoms := by
  have concluded_eq : concluded registrations phantoms =
      let ending := (conclude phantoms).run (history registrations).state
      ⟨ending.value, ending.state, (history registrations).events ++ ending.events⟩ := rfl
  have facts_eq := (history registrations).state.conclude_facts phantoms
  rw [(holds_history registrations).accesses, waiting_of_registrations registers] at facts_eq
  rw [concluded_eq, factsOf_append, factsOf_history, conclusions_of_registrations registers]
  exact facts_eq

end Registrations

/-- Registrations commute.  Whatever the order in which a registry is told methods, accesses, super
classes, fields and references before a conclusion, as long as no class is given two different super
classes, the conclusion writes the same row for each access, so that only the order of these rows
follows that of the registrations; it writes the same phantom types and the same phantom methods, in
the same order, and counts the same. -/
theorem registrations_commute {registrations others : List Command} (phantoms : Bool)
    (perm : registrations.Perm others)
    (registers : ∀ command ∈ registrations, command.phantoms? = none)
    (consistent : Consistent registrations) :
    (concluded registrations phantoms).value = (concluded others phantoms).value ∧
    ∃ (fieldOf : FieldSig → String) (types methods : List String),
      let accessRows (commands : List Command) : List Fact :=
        (commands.flatMap Command.queued).map fun access =>
          ⟨access.relation, access.columns (fieldOf access.field)⟩
      let entityRows : List Fact :=
        if phantoms then
          (types.map fun type => ⟨.phantomType, [type]⟩) ++
            methods.map fun id => ⟨.phantomMethod, [id]⟩
        else []
      factsOf (concluded registrations phantoms).events = accessRows registrations ++ entityRows ∧
      factsOf (concluded others phantoms).events = accessRows others ++ entityRows ∧
      (accessRows registrations).Perm (accessRows others) := by
  have other_registers : ∀ command ∈ others, command.phantoms? = none := fun command member =>
    registers command (perm.mem_iff.2 member)
  obtain ⟨value_eq, facts_eq⟩ := concluded_facts registers phantoms
  obtain ⟨other_value_eq, other_facts_eq⟩ := concluded_facts other_registers phantoms
  have knows := knows_history registrations
  have other_knows := knows_history others
  have same : ∀ command, command ∈ registrations ↔ command ∈ others := fun command => perm.mem_iff
  have agrees := knows.agrees other_knows same consistent
  have types_eq := agrees.phantomTypes_of_toList (knows.toList_referencedTypes_eq other_knows same)
  have methods_eq :=
    agrees.phantomMethods_of_toList (knows.toList_referencedMethods_eq other_knows same)
  have fields_eq : (history registrations).state.phantomFields =
      (history others).state.phantomFields := by
    rw [phantomFields, phantomFields, knows.referredFields, other_knows.referredFields]
    simp only [agrees.declaringClass?_eq]
    exact (perm.filterMap _).countP_eq _
  constructor
  · rw [value_eq, other_value_eq, phantomCounts, phantomCounts, types_eq, methods_eq, fields_eq]
  · refine ⟨(history registrations).state.resolvedId, (history registrations).state.phantomTypes,
      (history registrations).state.phantomMethods, facts_eq, ?_, ?_⟩
    · rw [other_facts_eq]
      congr 1
      · apply List.map_congr_left
        intro access _
        rw [accessFact, agrees.resolvedId_eq]
      · rw [phantomFacts, types_eq, methods_eq]
    · exact (perm.flatMap_right _).map _

/-- A class `B` below a class `A` with a field that is read through `B`. -/
def inheritedRead : List Command :=
  let field (owner : String) : FieldSig :=
    { id := Identifier.field owner "int" "x", owner, name := "x", type := "int" }
  [.linkSuper "B" "A", .defineFields "A" [field "A"], .referField (field "B"),
    .queueAccesses [{ relation := .loadInstanceField, insn := "m/0", index := 0, var := "m/v0",
                      base := some "m/v1", field := field "B", method := "m" }],
    .defineMethods ["m"], .referMethod "n", .referType (.object "C")]

theorem inheritedRead_commutes :
    inheritedRead.Perm inheritedRead.reverse ∧
    (∀ command ∈ inheritedRead, command.phantoms? = none) ∧ Consistent inheritedRead ∧
    (concluded inheritedRead true).value = (concluded inheritedRead.reverse true).value ∧
    (factsOf (concluded inheritedRead true).events).Perm
      (factsOf (concluded inheritedRead.reverse true).events) := by
  have perm : inheritedRead.Perm inheritedRead.reverse := (List.reverse_perm _).symm
  have registers : ∀ command ∈ inheritedRead, command.phantoms? = none := by
    simp [inheritedRead, Command.phantoms?]
  have consistent : Consistent inheritedRead := by
    intro cls first second first_link second_link
    simp only [inheritedRead, List.mem_cons, Command.linkSuper.injEq, reduceCtorEq,
      List.not_mem_nil, or_false] at first_link second_link
    rw [first_link.2, second_link.2]
  obtain ⟨value_eq, fieldOf, types, methods, facts_eq, other_facts_eq, rows_perm⟩ :=
    registrations_commute true perm registers consistent
  refine ⟨perm, registers, consistent, value_eq, ?_⟩
  rw [facts_eq, other_facts_eq]
  exact rows_perm.append_right _

end Hierarchy

end DalvikFacts
