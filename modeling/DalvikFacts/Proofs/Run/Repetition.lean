import DalvikFacts.Proofs.Run.Statistics

/-!
# Repeated runs

A run on what an earlier run on the same containers has left finds the same super classes and adds
nothing but definitions that are there already.  So it comes to the same statistics, with one
exception: references to fields are kept one by one, and those of the earlier run are counted again.
-/

namespace DalvikFacts

/-! ## References -/

/-- A class that the table of types of a container names. -/
def Container.NamesType (container : Container) (name : String) : Prop :=
  ∃ type ∈ container.types.toList, type.isClass = true ∧ type.sourceName = name

/-- A method that the table of methods of a container names. -/
def Container.NamesMethod (container : Container) (id : String) : Prop :=
  ∃ ref ∈ container.methods.toList, (MethodSig.ofRef ref).id = id

/-- The signatures of the tables of fields of containers. -/
def fieldReferences (containers : List Container) : List FieldSig :=
  containers.flatMap fun container => container.fields.toList.map FieldSig.ofRef

namespace References

variable {references : References} {container : Container}

theorem mem_types_report {name : String} :
    name ∈ (references.report container).types ↔
      name ∈ references.types ∨ container.NamesType name := by
  have folded : ∀ (types : List Descriptor) (known : Std.TreeSet String),
      name ∈ types.foldl (fun types type =>
          if type.isClass then types.insert type.sourceName else types) known ↔
        name ∈ known ∨ ∃ type ∈ types, type.isClass = true ∧ type.sourceName = name := by
    intro types
    induction types with
    | nil => simp
    | cons type rest induction =>
      intro known
      rw [List.foldl_cons, induction]
      cases class_eq : type.isClass with
      | false => simp [class_eq]
      | true => simp [class_eq, Std.TreeSet.mem_insert, or_assoc, or_left_comm]
  exact folded container.types.toList references.types

theorem mem_methods_report {id : String} :
    id ∈ (references.report container).methods ↔
      id ∈ references.methods ∨ container.NamesMethod id := by
  have folded : ∀ (methods : List MethodRef) (known : Std.TreeSet String),
      id ∈ methods.foldl (fun methods ref => methods.insert (MethodSig.ofRef ref).id) known ↔
        id ∈ known ∨ ∃ ref ∈ methods, (MethodSig.ofRef ref).id = id := by
    intro methods
    induction methods with
    | nil => simp
    | cons ref rest induction =>
      intro known
      rw [List.foldl_cons, induction]
      simp [Std.TreeSet.mem_insert, or_assoc, or_left_comm]
  exact folded container.methods.toList references.methods

end References

namespace Run

variable {references : References} {containers : List Container}

theorem mem_types_referencesAfter {name : String} :
    name ∈ (referencesAfter references containers).types ↔
      name ∈ references.types ∨ ∃ container ∈ containers, container.NamesType name := by
  induction containers generalizing references with
  | nil => simp [referencesAfter]
  | cons container rest induction =>
    refine (@induction (references.report container)).trans ?_
    rw [References.mem_types_report]
    simp [or_assoc]

theorem mem_methods_referencesAfter {id : String} :
    id ∈ (referencesAfter references containers).methods ↔
      id ∈ references.methods ∨ ∃ container ∈ containers, container.NamesMethod id := by
  induction containers generalizing references with
  | nil => simp [referencesAfter]
  | cons container rest induction =>
    refine (@induction (references.report container)).trans ?_
    rw [References.mem_methods_report]
    simp [or_assoc]

theorem fields_referencesAfter :
    (referencesAfter references containers).fields.toList =
      references.fields.toList ++ fieldReferences containers := by
  induction containers generalizing references with
  | nil => simp [referencesAfter, fieldReferences]
  | cons container rest induction =>
    refine (@induction (references.report container)).trans ?_
    simp [References.report, fieldReferences]

theorem referencesAfter_again :
    let once := referencesAfter references containers
    let twice := referencesAfter once containers
    twice.types.toList = once.types.toList ∧ twice.methods.toList = once.methods.toList := by
  intro once twice
  have types : ∀ name, name ∈ twice.types ↔ name ∈ once.types := by
    intro name
    simp only [twice, once, mem_types_referencesAfter, or_assoc, or_self]
  have methods : ∀ id, id ∈ twice.methods ↔ id ∈ once.methods := by
    intro id
    simp only [twice, once, mem_methods_referencesAfter, or_assoc, or_self]
  exact ⟨(Std.TreeSet.Equiv.of_forall_mem_iff types).toList_eq,
    (Std.TreeSet.Equiv.of_forall_mem_iff methods).toList_eq⟩

end Run

/-! ## Definitions -/

namespace Run

/-- A run on what an earlier run on the same containers has left. -/
structure Again (options : Options) (containers : List Container) (hierarchy : Hierarchy)
    (first second : Emitted Hierarchy (Except ExtractionError Stats))
    (account later : Account) (middle last : RunState) : Prop where
  tolerant : options.failFast = false
  earlier : Ends options containers hierarchy first account middle
  again : Ends options containers first.state second later last

namespace Again

variable {options : Options} {containers : List Container} {hierarchy : Hierarchy}
  {first second : Emitted Hierarchy (Except ExtractionError Stats)}
  {account later : Account} {middle last : RunState}
  (run : Again options containers hierarchy first second account later middle last)

include run

theorem start : RunState.Represents ⟨{ middle.hierarchy with accesses := #[] }, .zero, 0⟩
    first.state.ledger := by
  rw [← run.earlier.state_eq]
  exact first.state.represents_ledger

/-- No class has another super class, and none gets its first one. -/
theorem superOf?_eq : last.hierarchy.superOf? = middle.hierarchy.superOf? := by
  have start_eq : first.state.superOf? = middle.hierarchy.superOf? := by
    rw [run.earlier.state_eq]
    rfl
  have kept : ∀ {cls superName}, middle.hierarchy.superOf? cls = some superName →
      last.hierarchy.superOf? cls = some superName := by
    intro cls superName super_eq
    rw [← start_eq] at super_eq
    exact run.again.superOf?_of_start super_eq
  funext cls
  refine Option.ext fun superName => ⟨fun super_eq => ?_, kept⟩
  rcases run.again.linked cls superName super_eq with
    known | ⟨container, container_mem, cls, cls_mem, rfl, own_eq⟩
  · rwa [start_eq] at known
  · -- the class has got a super class in the earlier run, which has stayed
    have extracted : (container, cls) ∈ classesOf options containers :=
      mem_classesOf.2 ⟨container_mem, cls_mem⟩
    have given : cls.superName?.isSome := own_eq ▸ rfl
    obtain ⟨found, found_eq⟩ := Option.isSome_iff_exists.1
      (run.earlier.isSome_superOf? run.tolerant extracted given)
    exact found_eq.trans ((kept found_eq).symm.trans super_eq)

theorem account_eq : later = account := by
  rw [run.again.account_eq run.tolerant, run.earlier.account_eq run.tolerant, run.superOf?_eq]

theorem totals_eq : last.totals = middle.totals := by
  rw [run.again.totals_eq run.tolerant, run.earlier.totals_eq run.tolerant, run.superOf?_eq]

theorem mem_again {entry : Contribution} {found : Prop}
    (middle_iff : found ↔ entry ∈ hierarchy.ledger + account.1)
    (start_iff : found ↔ entry ∈ first.state.ledger) :
    entry ∈ first.state.ledger + later.1 ↔ found := by
  rw [Multiset.mem_add, ← start_iff, run.account_eq, middle_iff, Multiset.mem_add, or_assoc,
    or_self]

theorem agrees : last.hierarchy.Agrees middle.hierarchy where
  supers := congrFun run.superOf?_eq
  classes cls := Bool.eq_iff_iff.2 ((run.again.represents.classes cls).trans
    (run.mem_again (run.earlier.represents.classes cls) (run.start.classes cls)))
  fields field := Bool.eq_iff_iff.2 ((run.again.represents.fields field).trans
    (run.mem_again (run.earlier.represents.fields field) (run.start.fields field)))
  methods id := Bool.eq_iff_iff.2 ((run.again.represents.methods id).trans
    (run.mem_again (run.earlier.represents.methods id) (run.start.methods id)))

/-- The phantom types and methods are the same; references to fields count once more. -/
theorem phantomCounts_eq :
    last.hierarchy.phantomCounts =
      { middle.hierarchy.phantomCounts with
        fields := middle.hierarchy.phantomCounts.fields + (fieldReferences containers).countP
          fun field => (middle.hierarchy.declaringClass? field).isNone } := by
  have once := run.earlier.references_eq run.tolerant
  have twice := run.again.references_eq run.tolerant
  have start_eq : first.state.references = middle.hierarchy.references := by
    rw [run.earlier.state_eq]
    rfl
  rw [start_eq] at twice
  obtain ⟨types_eq, methods_eq⟩ := @referencesAfter_again hierarchy.references containers
  rw [← once, ← twice] at types_eq methods_eq
  have fields_eq : last.hierarchy.referencedFields.toList =
      middle.hierarchy.referencedFields.toList ++ fieldReferences containers :=
    (congrArg (·.fields.toList) twice).trans fields_referencesAfter
  unfold Hierarchy.phantomCounts
  rw [run.agrees.phantomTypes_of_toList types_eq, run.agrees.phantomMethods_of_toList methods_eq]
  congr 1
  unfold Hierarchy.phantomFields
  simp only [run.agrees.declaringClass?_eq]
  exact (congrArg _ fields_eq).trans List.countP_append

end Again

theorem exists_again {options : Options} (tolerant : options.failFast = false)
    (schedule again : Schedule) (containers : List Container) (hierarchy : Hierarchy) :
    let first := (runUnder schedule options containers).run hierarchy
    let second := (runUnder again options containers).run first.state
    ∃ account later middle last,
      Again options containers hierarchy first second account later middle last := by
  intro first second
  obtain ⟨account, middle, earlier⟩ := exists_ends options schedule containers hierarchy
  obtain ⟨later, last, ends⟩ := exists_ends options again containers first.state
  exact ⟨account, later, middle, last, tolerant, earlier, ends⟩

end Run

theorem Hierarchy.declaringClass?_of_accesses (hierarchy : Hierarchy)
    (accesses : Array FieldAccess) :
    { hierarchy with accesses }.declaringClass? = hierarchy.declaringClass? :=
  funext (Agrees.declaringClass?_eq ⟨fun _ => rfl, fun _ => rfl, fun _ => rfl, fun _ => rfl⟩)

/-- When failures are not to stop it, a second run on the same containers comes to the statistics of
the first one, whatever turns the workers take in each, but for the references to fields that no
class declares: those of the containers are counted once more. -/
theorem runUnder_again {options : Options} (tolerant : options.failFast = false)
    (schedule again : Schedule) (containers : List Container) (hierarchy : Hierarchy) :
    let first := (Run.runUnder schedule options containers).run hierarchy
    let second := (Run.runUnder again options containers).run first.state
    let undeclared := (fieldReferences containers).filter fun field =>
      (first.state.declaringClass? field).isNone
    ∃ stats, first.value = .ok stats ∧
      second.value = .ok { stats with phantoms := { stats.phantoms with
        fields := stats.phantoms.fields + undeclared.length } } := by
  intro first second undeclared
  obtain ⟨account, later, middle, last, run⟩ :=
    Run.exists_again tolerant schedule again containers hierarchy
  refine ⟨_, run.earlier.value_eq tolerant, (run.again.value_eq tolerant).trans ?_⟩
  have declaring_eq : first.state.declaringClass? = middle.hierarchy.declaringClass? := by
    rw [run.earlier.state_eq]
    exact middle.hierarchy.declaringClass?_of_accesses #[]
  rw [run.totals_eq, run.phantomCounts_eq, List.countP_eq_length_filter, ← declaring_eq]

/-- A container that only refers to a field. -/
def borrower : Container :=
  { loneContainer with methods := #[], fields := #[⟨.object "Lib", "count", .primitive .int⟩] }

/-- It defines no class, so nothing declares a field after a run on nothing else. -/
theorem declaringClass?_borrower {schedule : Schedule} {account : Account} {last : RunState}
    (ends : Run.Ends .standard [borrower] .empty
      ((Run.runUnder schedule .standard [borrower]).run .empty) account last) (field : FieldSig) :
    last.hierarchy.declaringClass? field = none := by
  have account_eq : account = 0 := ends.account_eq rfl
  cases declaring_eq : last.hierarchy.declaringClass? field with
  | none => rfl
  | some cls =>
    have defined := (Hierarchy.reaches_of_firstWithin declaring_eq).1
    have entered := (ends.represents.fields ⟨cls, field.name, field.type⟩).1 defined
    rw [account_eq, Prod.fst_zero, add_zero] at entered
    have known := (Hierarchy.empty.represents_ledger.fields ⟨cls, field.name, field.type⟩).2 entered
    simp [Hierarchy.empty] at known

/-- The second one of two runs on it has nothing but the field that is counted twice. -/
theorem runUnder_again_borrower :
    let first := (Run.runUnder [[1]] .standard [borrower]).run .empty
    let second := (Run.runUnder [] .standard [borrower]).run first.state
    Options.standard.failFast = false ∧ ∃ stats, first.value = .ok stats ∧
      second.value = .ok { stats with phantoms := { stats.phantoms with
        fields := stats.phantoms.fields + 1 } } := by
  intro first second
  obtain ⟨account, middle, ends⟩ := Run.exists_ends .standard [[1]] [borrower] .empty
  have undeclared : ∀ field, first.state.declaringClass? field = none := by
    intro field
    have declaring_eq := congrFun (middle.hierarchy.declaringClass?_of_accesses #[]) field
    rw [← ends.state_eq] at declaring_eq
    exact declaring_eq.trans (declaringClass?_borrower ends field)
  obtain ⟨stats, first_eq, second_eq⟩ :=
    runUnder_again (rfl : Options.standard.failFast = false) [[1]] [] [borrower] .empty
  have count_eq : ((fieldReferences [borrower]).filter fun field =>
      (first.state.declaringClass? field).isNone).length = 1 := by
    simp only [undeclared]
    rfl
  exact ⟨rfl, stats, first_eq, second_eq.trans (by rw [count_eq])⟩

/-- So the statistics of two runs differ. -/
theorem phantomFields_again_borrower :
    let first := (Run.runUnder [] .standard [borrower]).run .empty
    let second := (Run.runUnder [] .standard [borrower]).run first.state
    ∃ stats others, first.value = .ok stats ∧ second.value = .ok others ∧
      stats.phantoms.fields = 1 ∧ others.phantoms.fields = 2 := by
  intro first second
  obtain ⟨account, later, middle, last, run⟩ :=
    Run.exists_again (rfl : Options.standard.failFast = false) [] [] [borrower] .empty
  have references_eq : middle.hierarchy.referencedFields.toList = fieldReferences [borrower] :=
    (congrArg (·.fields.toList) (run.earlier.references_eq rfl)).trans Run.fields_referencesAfter
  have once : middle.hierarchy.phantomCounts.fields = 1 := by
    dsimp only [Hierarchy.phantomCounts, Hierarchy.phantomFields]
    simp only [references_eq, declaringClass?_borrower run.earlier]
    rfl
  have twice := congrArg PhantomCounts.fields run.phantomCounts_eq
  dsimp only at twice
  simp only [once, declaringClass?_borrower run.earlier] at twice
  exact ⟨_, _, run.earlier.value_eq rfl, run.again.value_eq rfl, once, twice⟩

end DalvikFacts
