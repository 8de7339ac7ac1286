import DalvikFacts.Proofs.Method.Recital
import DalvikFacts.Proofs.Run.Ending
import Mathlib.Algebra.GroupWithZero.Nat

/-!
# Statistics of runs

When failures are not to stop it, a run counts what it extracts exactly: every class, method and
failure is counted once, whatever turns the workers take and whatever earlier runs have left in the
hierarchy.  The super classes that are known at the end tell which classes were refused.
-/

namespace DalvikFacts

/-! ## What is counted -/

/-- Whether a field refers to an entry of its container. -/
def FieldDef.resolves (container : Container) (definition : FieldDef) : Bool :=
  (container.fieldAt definition.field).isOk

/-- Whether the extraction of a method does not fail. -/
def MethodDef.translates (container : Container) (definition : MethodDef) : Bool :=
  !(definition.extract container).fails

/-- The class that is told to be skipped, and why, if it is refused when a super class is known. -/
def ClassDef.skip? (cls : ClassDef) (known : Option String) : Option (String × ExtractionError) :=
  (cls.refusal? known).map fun error => (cls.name, error)

namespace Run

/-- The fields of the classes that are extracted. -/
def fieldsOf (options : Options) (containers : List Container) : List (Container × FieldDef) :=
  (classesOf options containers).flatMap fun entry => entry.2.fields.map (entry.1, ·)

/-- The methods of the classes that are extracted. -/
def methodsOf (options : Options) (containers : List Container) : List (Container × MethodDef) :=
  (classesOf options containers).flatMap fun entry => entry.2.methods.map (entry.1, ·)

/-- The classes that are refused when the given super classes are known, and why. -/
def refusals (superOf? : String → Option String) (classes : List (Container × ClassDef)) :
    List (String × ExtractionError) :=
  classes.filterMap fun entry => entry.2.skip? (superOf? entry.2.name)

end Run

/-! ## Methods and fields -/

theorem FieldDef.isSome_sig? (container : Container) (definition : FieldDef) :
    (definition.sig? container).isSome = definition.resolves container := by
  unfold sig? resolves
  cases container.fieldAt definition.field <;> rfl

namespace MethodDef

variable {container : Container} {definition : MethodDef}

theorem isSome_extracted? (container : Container) (definition : MethodDef) :
    (definition.extracted? container).isSome = definition.translates container := by
  unfold extracted? translates Extract.fails
  rw [Bool.not_not, show (definition.extract container).run.perform .empty =
    (definition.extract container).alone from rfl]
  cases (definition.extract container).alone.value <;> rfl

theorem instructions_of_extracted? {extracted : ExtractedMethod}
    (extracted_eq : definition.extracted? container = some extracted) :
    extracted.instructions = definition.instructions.length := by
  have value_eq := alone_of_extracted? extracted_eq
  rcases definition.extract_outcome container .empty with
    ⟨-, error, error_eq⟩ | ⟨cx, created, later, rfl, -, later_eq, -⟩
  · cases error_eq.symm.trans value_eq
  · have extracted_ok := later_eq.symm.trans value_eq
    unfold MethodDef.instructions
    cases code_eq : cx.definition.code with
    | none =>
      rw [cx.extract_of_none code_eq] at extracted_ok
      cases extracted_ok
      rfl
    | some code =>
      obtain ⟨account⟩ := MethodContext.exists_account code_eq later
      rw [(account.complete extracted extracted_ok).2.2]
      rfl

end MethodDef

namespace ClassDef

/-- What is left of the members of a class: the methods that translate with their instructions, and
a failure for every other member. -/
theorem summary_tallies (container : Container) (cls : ClassDef) :
    let left := cls.summary container
    let translated := cls.methods.filter (·.translates container)
    left.methods = translated.length ∧
      left.instructions = (translated.map (·.instructions.length)).sum ∧
      left.failures = (cls.fields.filter (!·.resolves container)).length +
        (cls.methods.filter (!·.translates container)).length := by
  intro left translated
  obtain ⟨-, -, -, methods_eq, instructions_eq, -⟩ := cls.summary_counts container
  have translated_eq : ∀ methods : List MethodDef,
      (methods.filterMap (·.extracted? container)).map ExtractedMethod.instructions =
        (methods.filter (·.translates container)).map (·.instructions.length) := by
    intro methods
    induction methods with
    | nil => rfl
    | cons method rest induction =>
      have isSome_eq := method.isSome_extracted? container
      cases found_eq : method.extracted? container with
      | none =>
        rw [found_eq] at isSome_eq
        rw [List.filterMap_cons_none found_eq, induction,
          List.filter_cons_of_neg (by simp [← isSome_eq])]
      | some extracted =>
        rw [found_eq] at isSome_eq
        rw [List.filterMap_cons_some found_eq, List.map_cons, induction,
          List.filter_cons_of_pos isSome_eq.symm, List.map_cons,
          MethodDef.instructions_of_extracted? found_eq]
  refine ⟨?_, ?_, ?_⟩
  · have lengths := congrArg List.length (translated_eq cls.methods)
    rw [List.length_map, List.length_map] at lengths
    exact methods_eq.trans lengths
  · exact instructions_eq.trans (congrArg List.sum (translated_eq cls.methods))
  · have lost_fields : Option.isNone ∘ (fun field : FieldDef => field.sig? container) =
        fun field => !field.resolves container := by
      funext field
      rw [← FieldDef.isSome_sig?, Option.not_isSome]
      rfl
    have lost_methods : Option.isNone ∘ (fun method : MethodDef => method.extracted? container) =
        fun method => !method.translates container := by
      funext method
      rw [← MethodDef.isSome_extracted?, Option.not_isSome]
      rfl
    dsimp only [left, summary, summarize]
    rw [List.countP_map, List.countP_map, lost_fields, lost_methods,
      List.countP_eq_length_filter, List.countP_eq_length_filter]

end ClassDef

/-! ## Sums -/

namespace Account

theorem totals_sum {part : Totals → Nat} (part_zero : part .zero = 0)
    (part_plus : ∀ totals others, part (totals.plus others) = part totals + part others)
    (accounts : List Account) :
    part accounts.sum.1.totals = (accounts.map fun account => part account.1.totals).sum := by
  induction accounts with
  | nil => exact part_zero
  | cons account rest induction =>
    rw [List.sum_cons, Prod.fst_add, Ledger.totals_add, part_plus, induction, List.map_cons,
      List.sum_cons]

theorem skipped_sum (accounts : List Account) :
    skipped accounts.sum = (accounts.map skipped).sum := by
  induction accounts with
  | nil => rfl
  | cons account rest induction =>
    rw [List.sum_cons, skipped_add, induction, List.map_cons, List.sum_cons]

end Account

namespace ClassDef

variable {options : Options} (container : Container) (cls : ClassDef) (known : Option String)

theorem totals_registered (links : Ledger)
    (linked : ∀ entry ∈ links, ∃ other superName, entry = .link other superName) :
    (cls.registered container + links).totals =
      { classes := 1
        methods := (cls.summary container).methods
        instructions := (cls.summary container).instructions
        failures := (cls.summary container).failures } := by
  have methods : (Ledger.ofMethods (cls.summary container).definedMethods).totals = .zero :=
    Ledger.totals_eq_zero _ (by simp [Ledger.ofMethods, Contribution.totals])
  have accesses : (Ledger.ofAccesses (cls.summary container).accesses).totals = .zero :=
    Ledger.totals_eq_zero _ (by simp [Ledger.ofAccesses, Contribution.totals])
  have links_zero : links.totals = .zero := by
    refine Ledger.totals_eq_zero _ fun entry member => ?_
    obtain ⟨other, superName, rfl⟩ := linked entry member
    rfl
  unfold registered
  rw [Ledger.totals_add, Ledger.totals_add, Ledger.totals_add, methods, accesses, links_zero]
  simp [Ledger.ofCounts, Ledger.totals, Contribution.totals, Totals.plus, Totals.zero]

variable (tolerant : options.failFast = false)

include tolerant

theorem skipped_account :
    (cls.account options container known).skipped = (cls.skip? known).toList := by
  have rows_quiet : Account.skipped (cls.registered container + cls.links known,
      cls.told options container) = 0 := by
    unfold Account.skipped told
    rw [Multiset.filterMap_coe, List.filterMap_map]
    exact congrArg _ (List.filterMap_eq_nil_iff.2 fun _ _ => rfl)
  unfold account skip?
  rw [Account.skipped_add, rows_quiet, zero_add]
  cases cls.refusal? known with
  | none => rfl
  | some error =>
    dsimp only
    rw [skipAccount_of_tolerant tolerant]
    rfl

/-- A class counts itself and its members, and once more when it is refused. -/
theorem totals_account :
    (cls.account options container known).1.totals =
      { classes := 1
        methods := (cls.summary container).methods
        instructions := (cls.summary container).instructions
        failures := (cls.summary container).failures + (cls.skip? known).toList.length } := by
  have linked : ∀ entry ∈ cls.links known, ∃ other superName, entry = .link other superName := by
    intro entry member
    obtain ⟨superName, entry_eq⟩ := exists_of_mem_links member
    exact ⟨cls.name, superName, entry_eq⟩
  unfold account skip?
  rw [Prod.fst_add, Ledger.totals_add, totals_registered container cls _ linked]
  cases cls.refusal? known with
  | none =>
    have fields : (Ledger.ofFields cls.name (cls.summary container).definedFields).totals = .zero :=
      Ledger.totals_eq_zero _ (by simp [Ledger.ofFields, Contribution.totals])
    dsimp only
    rw [fields]
    rfl
  | some error =>
    dsimp only
    rw [skipAccount_of_tolerant tolerant]
    rfl

end ClassDef

/-! ## Runs -/

namespace Run

variable {options : Options} {containers : List Container} {hierarchy : Hierarchy}
  {outcome : Emitted Hierarchy (Except ExtractionError Stats)} {account : Account} {last : RunState}

theorem account_of_root {cls : ClassDef} {container : Container} (root : cls.superName? = none)
    (known other : Option String) :
    cls.account options container known = cls.account options container other := by
  unfold ClassDef.account ClassDef.links ClassDef.refusal?
  rw [root]

/-- When failures are not to stop it, what a run leaves follows from the super classes that are
known at its end. -/
theorem Ends.account_eq (tolerant : options.failFast = false)
    (ends : Ends options containers hierarchy outcome account last) :
    account = ((classesOf options containers).map fun entry =>
      entry.2.account options entry.1 (last.hierarchy.superOf? entry.2.name)).sum := by
  refine ends.made.eq_sum (Multiset.le_add_left account.1 hierarchy.ledger) ?_
  rintro ⟨container, cls⟩ - part left below
  obtain ⟨known, linked, rfl⟩ := ClassDef.Leaves.exists_known left tolerant
  cases super_eq : cls.superName? with
  | none => exact account_of_root super_eq _ _
  | some superName =>
    have given : cls.superName?.isSome := super_eq ▸ rfl
    obtain ⟨known, rfl⟩ := Option.isSome_iff_exists.1 (linked.trans given)
    have known_mem := Multiset.mem_of_le below (ClassDef.mem_account_link given)
    dsimp only
    rw [(ends.represents.supers cls.name known).2 known_mem]

/-- A class with a super class has one at the end. -/
theorem Ends.isSome_superOf? (tolerant : options.failFast = false)
    (ends : Ends options containers hierarchy outcome account last) {entry : Container × ClassDef}
    (member : entry ∈ classesOf options containers) (given : entry.2.superName?.isSome) :
    (last.hierarchy.superOf? entry.2.name).isSome := by
  obtain ⟨part, left, below⟩ := ends.made.exists_of_mem member
  obtain ⟨known, linked, rfl⟩ := ClassDef.Leaves.exists_known left tolerant
  obtain ⟨known, rfl⟩ := Option.isSome_iff_exists.1 (linked.trans given)
  have known_mem : .link entry.2.name known ∈ hierarchy.ledger + account.1 :=
    Multiset.mem_add.2 (.inr (Multiset.mem_of_le below (ClassDef.mem_account_link given)))
  rw [(ends.represents.supers entry.2.name known).2 known_mem]
  rfl

theorem Ends.skipped_account (tolerant : options.failFast = false)
    (ends : Ends options containers hierarchy outcome account last) :
    account.skipped = refusals last.hierarchy.superOf? (classesOf options containers) := by
  rw [ends.account_eq tolerant, Account.skipped_sum, List.map_map]
  unfold refusals
  induction classesOf options containers with
  | nil => rfl
  | cons entry rest induction =>
    rw [List.map_cons, List.sum_cons, induction, Function.comp_apply,
      ClassDef.skipped_account _ _ _ tolerant, Multiset.coe_add, List.filterMap_cons]
    cases entry.2.skip? (last.hierarchy.superOf? entry.2.name) <;> rfl

theorem filter_members {β : Type} (members : ClassDef → List β) (chosen : Container → β → Bool)
    (classes : List (Container × ClassDef)) :
    (classes.flatMap fun entry => (members entry.2).map (entry.1, ·)).filter
        (fun member => chosen member.1 member.2) =
      classes.flatMap fun entry =>
        ((members entry.2).filter (chosen entry.1)).map (entry.1, ·) := by
  rw [List.filter_flatMap]
  congr 1
  funext entry
  rw [List.filter_map]
  rfl

theorem length_filter_members {β : Type} (members : ClassDef → List β)
    (chosen : Container → β → Bool) (classes : List (Container × ClassDef)) :
    ((classes.flatMap fun entry => (members entry.2).map (entry.1, ·)).filter
        (fun member => chosen member.1 member.2)).length =
      (classes.map fun entry => ((members entry.2).filter (chosen entry.1)).length).sum := by
  rw [filter_members, List.length_flatMap]
  simp only [List.length_map]

theorem length_refusals (superOf? : String → Option String)
    (classes : List (Container × ClassDef)) :
    (refusals superOf? classes).length =
      (classes.map fun entry => (entry.2.skip? (superOf? entry.2.name)).toList.length).sum := by
  unfold refusals
  induction classes with
  | nil => rfl
  | cons entry rest induction =>
    rw [List.map_cons, List.sum_cons, ← induction, List.filterMap_cons]
    cases entry.2.skip? (superOf? entry.2.name) with
    | none => exact (Nat.zero_add _).symm
    | some skipped => exact Nat.add_comm _ 1

/-- What a run has counted when failures are not to stop it. -/
theorem Ends.totals_eq (tolerant : options.failFast = false)
    (ends : Ends options containers hierarchy outcome account last) :
    let translated := (methodsOf options containers).filter fun entry => entry.2.translates entry.1
    last.totals =
      { classes := (classesOf options containers).length
        methods := translated.length
        instructions := (translated.map (·.2.instructions.length)).sum
        failures :=
          ((fieldsOf options containers).filter fun entry => !entry.2.resolves entry.1).length +
            ((methodsOf options containers).filter fun entry =>
              !entry.2.translates entry.1).length +
            (refusals last.hierarchy.superOf? (classesOf options containers)).length } := by
  intro translated
  have start_totals : hierarchy.ledger.totals = .zero := hierarchy.represents_ledger.totals.symm
  have sum_of : ∀ part : Totals → Nat, part .zero = 0 →
      (∀ totals others, part (totals.plus others) = part totals + part others) →
      part last.totals = ((classesOf options containers).map fun entry =>
        part (entry.2.account options entry.1
          (last.hierarchy.superOf? entry.2.name)).1.totals).sum := by
    intro part part_zero part_plus
    rw [ends.represents.totals, Ledger.totals_add, part_plus, start_totals, part_zero, zero_add,
      ends.account_eq tolerant, Account.totals_sum part_zero part_plus, List.map_map]
    rfl
  have classes := sum_of Totals.classes rfl fun _ _ => rfl
  have methods := sum_of Totals.methods rfl fun _ _ => rfl
  have instructions := sum_of Totals.instructions rfl fun _ _ => rfl
  have failures := sum_of Totals.failures rfl fun _ _ => rfl
  simp only [ClassDef.totals_account _ _ _ tolerant, fun container cls =>
    (ClassDef.summary_tallies container cls).1, fun container cls =>
    (ClassDef.summary_tallies container cls).2.1, fun container cls =>
    (ClassDef.summary_tallies container cls).2.2] at classes methods instructions failures
  have translated_eq : translated = (classesOf options containers).flatMap fun entry =>
      (entry.2.methods.filter (·.translates entry.1)).map (entry.1, ·) :=
    filter_members ClassDef.methods (fun container method => method.translates container) _
  have methods_eq : last.totals.methods = translated.length := by
    rw [methods, translated_eq, List.length_flatMap]
    simp only [List.length_map]
  have instructions_eq : last.totals.instructions =
      (translated.map (·.2.instructions.length)).sum := by
    rw [instructions, translated_eq, List.map_flatMap, List.flatMap_def, List.sum_flatten,
      List.map_map]
    simp only [List.map_map, Function.comp_def]
  have failures_eq : last.totals.failures =
      ((fieldsOf options containers).filter fun entry => !entry.2.resolves entry.1).length +
        ((methodsOf options containers).filter fun entry => !entry.2.translates entry.1).length +
        (refusals last.hierarchy.superOf? (classesOf options containers)).length := by
    rw [failures, List.sum_map_add, List.sum_map_add, length_refusals, fieldsOf, methodsOf,
      length_filter_members ClassDef.fields (fun container field => !field.resolves container),
      length_filter_members ClassDef.methods (fun container method => !method.translates container)]
  have classes_eq : last.totals.classes = (classesOf options containers).length := by
    rw [classes, List.map_const', List.sum_replicate]
    simp
  rw [← classes_eq, ← methods_eq, ← instructions_eq, ← failures_eq]

end Run

/-- When failures are not to stop it, the statistics of a run are exact, whatever turns its workers
take, whatever the size of their groups, and on whatever hierarchy it starts.  It counts the
containers; the classes that are extracted; their methods that translate, with their instructions;
and as failures their fields that do not resolve, their methods that do not translate, and those of
the classes that are refused, which are told.  Each class with a super class has one at the end, and
is refused if that is not its own one.  The super classes that are known at the end are those that
were known at the start, which stay, and some of the classes that are extracted. -/
theorem runUnder_statistics {options : Options} (tolerant : options.failFast = false)
    (schedule : Schedule) (containers : List Container) (hierarchy : Hierarchy) :
    let outcome := (Run.runUnder schedule options containers).run hierarchy
    let classes := Run.classesOf options containers
    let fields := Run.fieldsOf options containers
    let methods := Run.methodsOf options containers
    let translated := methods.filter fun entry => entry.2.translates entry.1
    let refused := Run.refusals outcome.state.superOf? classes
    (∃ stats, outcome.value = .ok stats ∧
      stats.containers = containers.length ∧
      stats.totals.classes = classes.length ∧
      stats.totals.methods = translated.length ∧
      stats.totals.instructions = (translated.map (·.2.instructions.length)).sum ∧
      stats.totals.failures = (fields.filter fun entry => !entry.2.resolves entry.1).length +
        (methods.filter fun entry => !entry.2.translates entry.1).length + refused.length) ∧
    (skippedOf outcome.events).Perm refused ∧
    (∀ entry ∈ classes, entry.2.superName?.isSome → (outcome.state.superOf? entry.2.name).isSome) ∧
    (∀ cls superName, hierarchy.superOf? cls = some superName →
      outcome.state.superOf? cls = some superName) ∧
    ∀ cls superName, outcome.state.superOf? cls = some superName →
      hierarchy.superOf? cls = some superName ∨
        Run.GivesSuper options containers cls superName := by
  intro outcome classes fields methods translated refused
  obtain ⟨account, last, ends⟩ := Run.exists_ends options schedule containers hierarchy
  have supers_eq : outcome.state.superOf? = last.hierarchy.superOf? := by
    rw [ends.state_eq]
    rfl
  have totals_eq := ends.totals_eq tolerant
  rw [← supers_eq] at totals_eq
  refine ⟨⟨_, ends.value_eq tolerant, rfl, ?_⟩, ?_, ?_, ?_, ?_⟩
  · rw [totals_eq]
    exact ⟨rfl, rfl, rfl, rfl⟩
  · rw [← Multiset.coe_eq_coe, ends.skipped_eq, ends.skipped_account tolerant, ← supers_eq]
  · intro entry entry_mem given
    rw [supers_eq]
    exact ends.isSome_superOf? tolerant entry_mem given
  · intro cls superName super_eq
    rw [supers_eq]
    exact ends.superOf?_of_start super_eq
  · intro cls superName super_eq
    rw [supers_eq] at super_eq
    exact ends.linked cls superName super_eq

/-- A hierarchy in which the class of the mixed members has another super class. -/
def relinked : Hierarchy :=
  { Hierarchy.empty with supers := Std.HashMap.ofList [("Lone", "Elsewhere")] }

/-- On it, the class is counted with the method that translates.  Its field and its method that fail
are failures, and so is the class itself, which is refused. -/
theorem runUnder_statistics_relinked :
    let outcome := (Run.runUnder [[0, 0]] .standard [mixed]).run relinked
    Options.standard.failFast = false ∧
    (∃ stats, outcome.value = .ok stats ∧ stats.containers = 1 ∧ stats.totals = ⟨1, 1, 2, 3⟩) ∧
      skippedOf outcome.events = [("Lone", .superClassConflict "Lone" "Elsewhere" "Parent")] := by
  intro outcome
  obtain ⟨⟨stats, value_eq, containers_eq, classes_eq, methods_eq, instructions_eq, failures_eq⟩,
    skipped_perm, -, kept, -⟩ := runUnder_statistics (rfl : Options.standard.failFast = false)
      [[0, 0]] [mixed] relinked
  have start_eq : relinked.superOf? "Lone" = some "Elsewhere" := by
    simp [relinked, Hierarchy.superOf?]
  have known_eq : outcome.state.superOf? "Lone" = some "Elsewhere" := kept _ _ start_eq
  have skip_eq : mixedClass.skip? (some "Elsewhere") =
      some ("Lone", .superClassConflict "Lone" "Elsewhere" "Parent") := by decide
  have refused_eq : Run.refusals outcome.state.superOf? (Run.classesOf .standard [mixed]) =
      [("Lone", .superClassConflict "Lone" "Elsewhere" "Parent")] :=
    List.filterMap_cons_some ((congrArg mixedClass.skip? known_eq).trans skip_eq)
  have translated_eq : ((Run.methodsOf .standard [mixed]).filter fun entry =>
      entry.2.translates entry.1).map (·.2.instructions.length) = [2] := by cbv
  have lost_fields : ((Run.fieldsOf .standard [mixed]).filter fun entry =>
      !entry.2.resolves entry.1).length = 1 := by decide
  have lost_methods : ((Run.methodsOf .standard [mixed]).filter fun entry =>
      !entry.2.translates entry.1).length = 1 := by cbv
  have translated_length := congrArg List.length translated_eq
  rw [List.length_map] at translated_length
  rw [translated_length] at methods_eq
  rw [translated_eq] at instructions_eq
  rw [lost_fields, lost_methods, refused_eq] at failures_eq
  rw [refused_eq] at skipped_perm
  refine ⟨rfl, ⟨stats, value_eq, containers_eq, ?_⟩, List.perm_singleton.1 skipped_perm⟩
  have totals_eq : stats.totals = ⟨stats.totals.classes, stats.totals.methods,
      stats.totals.instructions, stats.totals.failures⟩ := rfl
  rw [totals_eq, classes_eq, methods_eq, instructions_eq, failures_eq]
  rfl

end DalvikFacts
