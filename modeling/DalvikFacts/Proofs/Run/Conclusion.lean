import DalvikFacts.Proofs.Run.Ledger

/-!
# Conclusions

What the end of a run writes depends on the contents of the hierarchy, and on nothing else: on the
super classes, the definitions and the references, but not on the order in which they were entered.
Queued field accesses come in another order when they were queued in another one.
-/

namespace DalvikFacts

namespace Hierarchy

/-- Two hierarchies have the same links and definitions. -/
structure Agrees (first second : Hierarchy) : Prop where
  supers : ∀ cls, first.superOf? cls = second.superOf? cls
  classes : ∀ cls, first.definedClasses.contains cls = second.definedClasses.contains cls
  fields : ∀ field, first.definedFields.contains field = second.definedFields.contains field
  methods : ∀ id, first.definedMethods.contains id = second.definedMethods.contains id

/-- Two hierarchies have the same contents, apart from the order of the queued accesses. -/
structure Same (first second : Hierarchy) : Prop extends Agrees first second where
  accesses : first.accesses.toList.Perm second.accesses.toList
  references : first.references = second.references

namespace Agrees

variable {first second : Hierarchy} (same : first.Agrees second)

include same

theorem size_supers : first.supers.size = second.supers.size :=
  (Std.HashMap.Equiv.of_forall_getElem?_eq same.supers).size_eq

theorem firstWithin_eq (property : String → Bool) (steps : Nat) (cls : String) :
    first.firstWithin property steps cls = second.firstWithin property steps cls := by
  induction steps generalizing cls with
  | zero =>
    unfold firstWithin
    rfl
  | succ steps induction =>
    unfold firstWithin
    rw [same.supers]
    cases second.superOf? cls with
    | none => rfl
    | some superName =>
      dsimp only
      rw [induction]

theorem declaringClass?_eq (field : FieldSig) :
    first.declaringClass? field = second.declaringClass? field := by
  have defines_eq : first.defines field = second.defines field :=
    funext fun cls => same.fields ⟨cls, field.name, field.type⟩
  unfold declaringClass?
  rw [defines_eq, same.size_supers, same.firstWithin_eq]

theorem resolvedId_eq (field : FieldSig) : first.resolvedId field = second.resolvedId field := by
  unfold resolvedId
  rw [same.declaringClass?_eq]

theorem phantomTypes_of_toList
    (types_eq : first.referencedTypes.toList = second.referencedTypes.toList) :
    first.phantomTypes = second.phantomTypes := by
  unfold phantomTypes
  rw [types_eq]
  simp only [same.classes]

theorem phantomMethods_of_toList
    (methods_eq : first.referencedMethods.toList = second.referencedMethods.toList) :
    first.phantomMethods = second.phantomMethods := by
  unfold phantomMethods
  rw [methods_eq]
  simp only [same.methods]

end Agrees

namespace Same

variable {first second : Hierarchy} (same : first.Same second)

include same

theorem phantomTypes_eq : first.phantomTypes = second.phantomTypes :=
  same.phantomTypes_of_toList
    (congrArg (fun references => references.types.toList) same.references)

theorem phantomMethods_eq : first.phantomMethods = second.phantomMethods :=
  same.phantomMethods_of_toList
    (congrArg (fun references => references.methods.toList) same.references)

theorem phantomCounts_eq : first.phantomCounts = second.phantomCounts := by
  have fields_eq : first.referencedFields = second.referencedFields :=
    congrArg References.fields same.references
  unfold phantomCounts phantomFields
  rw [same.phantomTypes_eq, same.phantomMethods_eq, fields_eq]
  simp only [same.declaringClass?_eq]

end Same

/-- The row of a field access. -/
def accessFact (hierarchy : Hierarchy) (access : FieldAccess) : Fact :=
  ⟨access.relation, access.columns (hierarchy.resolvedId access.field)⟩

/-- The rows of phantom entities, if they are wanted. -/
def phantomFacts (hierarchy : Hierarchy) (phantoms : Bool) : List Fact :=
  if phantoms then
    (hierarchy.phantomTypes.map fun type => ⟨.phantomType, [type]⟩) ++
      hierarchy.phantomMethods.map fun id => ⟨.phantomMethod, [id]⟩
  else []

section Same

variable {first second : Hierarchy} (same : first.Same second)

include same

theorem Same.accessFact_eq : first.accessFact = second.accessFact := by
  funext access
  unfold accessFact
  rw [same.resolvedId_eq]

theorem Same.phantomFacts_eq (phantoms : Bool) :
    first.phantomFacts phantoms = second.phantomFacts phantoms := by
  unfold phantomFacts
  rw [same.phantomTypes_eq, same.phantomMethods_eq]

end Same

/-- The end of a run writes the queued accesses and the phantom entities, and empties the queue. -/
theorem run_conclude (hierarchy : Hierarchy) (phantoms : Bool) :
    (conclude phantoms).run hierarchy =
      { value := hierarchy.phantomCounts
        state := { hierarchy with accesses := #[] }
        events := (hierarchy.accesses.toList.map hierarchy.accessFact).map .fact ++
          .notice (.fieldAccesses hierarchy.accesses.size) ::
            (hierarchy.phantomFacts phantoms).map .fact } := by
  have written : ∀ state : Hierarchy, (hierarchy.accesses.toList.forM fun access =>
      access.write (hierarchy.resolvedId access.field) : Emit Hierarchy Unit).run state =
        ⟨(), state, (hierarchy.accesses.toList.map hierarchy.accessFact).map .fact⟩ := by
    intro state
    rw [List.map_map]
    exact Emit.run_forM_event _ (fun access => .fact (hierarchy.accessFact access)) state
  have types : ∀ state : Hierarchy, (hierarchy.phantomTypes.forM fun type =>
      Emit.row .phantomType [type] : Emit Hierarchy Unit).run state =
        ⟨(), state, (hierarchy.phantomTypes.map fun type => ⟨.phantomType, [type]⟩).map .fact⟩ := by
    intro state
    rw [List.map_map]
    exact Emit.run_forM_event _ (fun type => .fact ⟨.phantomType, [type]⟩) state
  have methods : ∀ state : Hierarchy, (hierarchy.phantomMethods.forM fun id =>
      Emit.row .phantomMethod [id] : Emit Hierarchy Unit).run state =
        ⟨(), state, (hierarchy.phantomMethods.map fun id => ⟨.phantomMethod, [id]⟩).map .fact⟩ := by
    intro state
    rw [List.map_map]
    exact Emit.run_forM_event _ (fun id => .fact ⟨.phantomMethod, [id]⟩) state
  unfold conclude phantomFacts
  cases phantoms with
  | false =>
    simp only [Bool.false_eq_true, if_false, Emit.run_bind, Emit.run_get, Emit.run_set, written,
      Emit.notice, Emit.run_event, Emit.run_pure, List.nil_append, List.append_nil, List.map_nil]
  | true =>
    simp only [if_true, Emit.run_bind, Emit.run_get, Emit.run_set, written, types, methods,
      Emit.notice, Emit.run_event, Emit.run_pure, List.nil_append, List.append_nil,
      List.singleton_append, List.map_append]

theorem factsOf_map_fact (facts : List Fact) : factsOf (facts.map .fact) = facts := by
  simp [factsOf, List.filterMap_map, Function.comp_def, Event.fact?]

theorem conclude_facts (hierarchy : Hierarchy) (phantoms : Bool) :
    ((conclude phantoms).run hierarchy).value = hierarchy.phantomCounts ∧
      factsOf ((conclude phantoms).run hierarchy).events =
        hierarchy.accesses.toList.map hierarchy.accessFact ++ hierarchy.phantomFacts phantoms := by
  rw [run_conclude, factsOf_append, factsOf_cons_notice, factsOf_map_fact, factsOf_map_fact]
  exact ⟨rfl, rfl⟩

end Hierarchy

/-- States that represent the same ledger have the same contents. -/
theorem RunState.Represents.same {first second : RunState} {ledger : Ledger}
    (first_represents : first.Represents ledger) (second_represents : second.Represents ledger)
    (references_eq : first.hierarchy.references = second.hierarchy.references) :
    first.hierarchy.Same second.hierarchy where
  supers cls := Option.ext fun superName =>
    (first_represents.supers cls superName).trans (second_represents.supers cls superName).symm
  classes cls := by
    rw [Bool.eq_iff_iff]
    exact (first_represents.classes cls).trans (second_represents.classes cls).symm
  fields field := by
    rw [Bool.eq_iff_iff]
    exact (first_represents.fields field).trans (second_represents.fields field).symm
  methods id := by
    rw [Bool.eq_iff_iff]
    exact (first_represents.methods id).trans (second_represents.methods id).symm
  accesses :=
    Multiset.coe_eq_coe.1 (first_represents.accesses.trans second_represents.accesses.symm)
  references := references_eq

end DalvikFacts
