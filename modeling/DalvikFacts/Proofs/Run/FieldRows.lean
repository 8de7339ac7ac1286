import DalvikFacts.Proofs.Method.FieldAccesses
import DalvikFacts.Proofs.Run.Ending
import Mathlib.Control.Traversable.Instances

/-!
# Rows of field accesses

The row of a field access has the identifier of a field that is declared by a row of its own, by
some class on the way up from the one that the instruction names, or that of the reference itself.
This holds for successive runs on one hierarchy, also when a class is left out because it is
refused, or because failures have stopped its group: its fields are registered after its rows are
written.
-/

namespace DalvikFacts

/-- The fields of the classes of a container are their own, as far as they refer to an entry. -/
def Container.OwnsFields (container : Container) : Prop :=
  ∀ cls ∈ container.classes, ∀ definition ∈ cls.fields, ∀ ref,
    container.fieldAt definition.field = .ok ref → ref.owner = cls.type

/-- The row of a field that a class defines. -/
def DefinedField.row (field : DefinedField) : Fact :=
  ⟨.field, [Identifier.field field.owner field.type field.name, field.owner, field.name,
    field.type]⟩

theorem FieldDef.row_mem_report {container : Container} {definition : FieldDef} {ref : FieldRef}
    (ref_eq : container.fieldAt definition.field = .ok ref) :
    ⟨.field, [(FieldSig.ofRef ref).id, (FieldSig.ofRef ref).owner, (FieldSig.ofRef ref).name,
      (FieldSig.ofRef ref).type]⟩ ∈ (definition.report container).facts := by
  unfold report
  rw [ref_eq]
  exact List.mem_cons_self

theorem FieldDef.exists_ref_of_sig? {container : Container} {definition : FieldDef} {sig : FieldSig}
    (sig_eq : definition.sig? container = some sig) :
    ∃ ref, container.fieldAt definition.field = .ok ref ∧ sig = .ofRef ref := by
  unfold sig? at sig_eq
  cases ref_eq : container.fieldAt definition.field with
  | error missing =>
    rw [ref_eq] at sig_eq
    cases sig_eq
  | ok ref =>
    rw [ref_eq] at sig_eq
    cases sig_eq
    exact ⟨ref, rfl, rfl⟩

namespace ClassDef.Leaves

variable {options : Options} {container : Container} {cls : ClassDef} {part : Account}

theorem exists_method (left : cls.Leaves options container part) {access : FieldAccess}
    (queued : .access access ∈ part.1) :
    ∃ method ∈ cls.methods, ∃ extracted,
      (method.extract container).alone.value = .ok extracted ∧ access ∈ extracted.accesses := by
  cases left with
  | untouched => exact absurd queued (Multiset.notMem_zero _)
  | failed => exact absurd queued (Multiset.notMem_zero _)
  | extracted known linked complete =>
    have in_summary := mem_account_access.1 queued
    obtain ⟨-, -, accesses_eq, -⟩ := cls.summary_counts container
    rw [accesses_eq] at in_summary
    obtain ⟨extracted, extracted_mem, access_mem⟩ := List.mem_flatMap.1 in_summary
    obtain ⟨method, method_mem, extracted_eq⟩ := List.mem_filterMap.1 extracted_mem
    have value_eq := MethodDef.alone_of_extracted? extracted_eq
    exact ⟨method, method_mem, extracted, value_eq, access_mem⟩

/-- The fields that are left of a class are those that resolve, and have rows. -/
theorem row_mem (left : cls.Leaves options container part) (owned : container.OwnsFields)
    (member : cls ∈ container.classes) {field : DefinedField} (defined : .field field ∈ part.1) :
    .fact field.row ∈ part.2 := by
  cases left with
  | untouched => exact absurd defined (Multiset.notMem_zero _)
  | failed => exact absurd defined (Multiset.notMem_zero _)
  | extracted known linked complete =>
    obtain ⟨-, sig, sig_mem, rfl⟩ := mem_account_field.1 defined
    obtain ⟨fields_eq, -⟩ := cls.summary_counts container
    rw [fields_eq] at sig_mem
    obtain ⟨definition, definition_mem, sig_eq⟩ := List.mem_filterMap.1 sig_mem
    obtain ⟨ref, ref_eq, rfl⟩ := FieldDef.exists_ref_of_sig? sig_eq
    -- the row of the definition names the class, because the field is its own
    have owner_eq : (FieldSig.ofRef ref).owner = cls.name :=
      congrArg Descriptor.sourceName (owned cls member definition definition_mem ref ref_eq)
    have row_eq : DefinedField.row ⟨cls.name, (FieldSig.ofRef ref).name,
        (FieldSig.ofRef ref).type⟩ =
        ⟨.field, [(FieldSig.ofRef ref).id, (FieldSig.ofRef ref).owner, (FieldSig.ofRef ref).name,
          (FieldSig.ofRef ref).type]⟩ := by
      rw [← owner_eq]
      rfl
    have reported : definition.report container ∈ cls.reports container :=
      List.mem_append_left _ (List.mem_map_of_mem definition_mem)
    have in_facts : DefinedField.row ⟨cls.name, (FieldSig.ofRef ref).name,
        (FieldSig.ofRef ref).type⟩ ∈ cls.facts options container := by
      rw [row_eq, complete]
      exact List.mem_append_right _
        (List.mem_flatMap.2 ⟨_, reported, FieldDef.row_mem_report ref_eq⟩)
    exact Multiset.mem_add.2 (.inl (Multiset.mem_coe.2 (List.mem_map_of_mem in_facts)))

end ClassDef.Leaves

/-! ## Runs -/

namespace Run

/-- A field access is that of an instruction of a class that is extracted. -/
def Uses (options : Options) (containers : List Container) (access : FieldAccess) : Prop :=
  ∃ container ∈ containers, ∃ cls ∈ accepted options container, ∃ method ∈ cls.methods, ∃ ref,
    container.methodAt method.method = .ok ref ∧
      ∃ here ∈ method.located, access.IsOf container (MethodSig.ofRef ref).id here

/-- What is behind runs: no field access waits, and each field that is defined has been written. -/
structure Backed (written : List Fact) (hierarchy : Hierarchy) : Prop where
  accesses_eq : hierarchy.accesses = #[]
  rows : ∀ field ∈ hierarchy.definedFields, field.row ∈ written

namespace Ends

variable {options : Options} {containers : List Container} {hierarchy : Hierarchy}
  {outcome : Emitted Hierarchy (Except ExtractionError Stats)} {account : Account}
  {last : RunState} {written : List Fact}
  (ends : Ends options containers hierarchy outcome account last)

include ends

theorem written_of_told {fact : Fact} (told : .fact fact ∈ account.2) :
    fact ∈ factsOf outcome.events := by
  have in_account : fact ∈ account.facts := (Multiset.mem_filterMap _ _).2 ⟨_, told, rfl⟩
  rw [← Multiset.mem_coe, ends.facts_eq]
  exact Multiset.mem_add.2 (.inl in_account)

/-- The fields that are defined at the end have rows. -/
theorem rows (backed : Backed written hierarchy)
    (owned : ∀ container ∈ containers, container.OwnsFields) :
    ∀ field ∈ last.hierarchy.definedFields, field.row ∈ written ++ factsOf outcome.events := by
  intro field member
  rcases Multiset.mem_add.1 ((ends.represents.fields field).1 member) with known | entered
  · have started := (hierarchy.represents_ledger.fields field).2 known
    exact List.mem_append_left _ (backed.rows field started)
  · obtain ⟨⟨container, cls⟩, entry_mem, part, left, in_part, below⟩ :=
      ends.made.exists_of_entry entered
    obtain ⟨container_mem, cls_mem⟩ := mem_classesOf.1 entry_mem
    have told := ClassDef.Leaves.row_mem left (owned container container_mem)
      (List.mem_of_mem_filter cls_mem) in_part
    exact List.mem_append_right _ (ends.written_of_told (Multiset.mem_of_le below told))

/-- The field accesses that wait at the end are those of the instructions. -/
theorem uses (accesses_eq : hierarchy.accesses = #[]) {access : FieldAccess}
    (queued : access ∈ last.hierarchy.accesses.toList) : Uses options containers access := by
  have started : hierarchy.ledger.accesses = 0 := by
    rw [← hierarchy.represents_ledger.accesses, accesses_eq]
    rfl
  rw [← Multiset.mem_coe, ends.represents.accesses, Ledger.accesses_add, started, zero_add]
    at queued
  obtain ⟨⟨container, cls⟩, entry_mem, part, left, in_part, -⟩ :=
    ends.made.exists_of_entry (account.1.mem_of_mem_accesses queued)
  obtain ⟨container_mem, cls_mem⟩ := mem_classesOf.1 entry_mem
  obtain ⟨method, method_mem, extracted, value_eq, access_mem⟩ :=
    ClassDef.Leaves.exists_method left in_part
  obtain ⟨ref, ref_eq, named⟩ := MethodDef.accesses_named SignatureCache.knows_empty value_eq
  exact ⟨container, container_mem, cls, cls_mem, method, method_mem, ref, ref_eq,
    named access access_mem⟩

theorem backed (before : Backed written hierarchy)
    (owned : ∀ container ∈ containers, container.OwnsFields) :
    Backed (written ++ factsOf outcome.events) outcome.state := by
  rw [ends.state_eq]
  exact ⟨rfl, ends.rows before owned⟩

end Ends

end Run

end DalvikFacts
