import DalvikFacts.Proofs.Hierarchy.Registrations
import DalvikFacts.Proofs.Outcome

/-!
# Phantom entities

What a conclusion reports as phantom is told by the commands before it: the classes and methods that
they refer to and never define, in the order of their names, and the references to fields that no
class declares.  A class or method counts once however often it is referred to, a reference to a
field as often as it was made, and earlier conclusions make no difference.
-/

namespace DalvikFacts

/-- The code points of a text. -/
def codePoints (text : String) : List Nat :=
  text.toList.map Char.toNat

theorem codePoints_lt {first second : String} (lt : first < second) :
    codePoints first < codePoints second := by
  have lexicographic : List.Lex (· < ·) first.toList second.toList := String.lt_iff.1 lt
  rw [codePoints, codePoints]
  generalize first.toList = left, second.toList = right at lexicographic
  induction lexicographic with
  | nil => exact .nil
  | cons _ induction => exact .cons induction
  | rel lower => exact .rel lower

theorem pairwise_codePoints (names : Std.TreeSet String) :
    names.toList.Pairwise fun first second => codePoints first < codePoints second := by
  apply names.ordered_toList.imp
  intro first second lt
  exact codePoints_lt (compareOfLessAndEq_eq_lt.1 lt)

namespace Hierarchy

/-! ## References and definitions -/

section Commands

variable (commands : List Command)

/-- Some commands refer to a class by its name. -/
def RefersToClass (name : String) : Prop :=
  ∃ type : Descriptor, .referType type ∈ commands ∧ type.isClass = true ∧ type.sourceName = name

/-- Some commands register a class. -/
def DefinesClass (name : String) : Prop :=
  ∃ fields, .defineFields name fields ∈ commands

/-- Some commands refer to a method. -/
def RefersToMethod (id : String) : Prop :=
  .referMethod id ∈ commands

/-- Some commands register a method as defined. -/
def DefinesMethod (id : String) : Prop :=
  ∃ ids, .defineMethods ids ∈ commands ∧ id ∈ ids

/-- Some commands register a field of the name and type of a reference for a class. -/
def DefinesField (field : FieldSig) (cls : String) : Prop :=
  ∃ fields, .defineFields cls fields ∈ commands ∧
    ∃ other ∈ fields, other.name = field.name ∧ other.type = field.type

/-- A class that can be reached from that of a reference through super classes has its field. -/
def Declares (field : FieldSig) : Prop :=
  ∃ cls, Reaches (linkIn? commands) field.owner cls ∧ DefinesField commands field cls

/-- The fields that some commands refer to, each as often as they do. -/
def referredFields : List FieldSig :=
  commands.filterMap Command.referredField?

end Commands

section Iff

variable {commands : List Command} {name id cls : String} {field : FieldSig}

theorem refersToClass_iff : RefersToClass commands name ↔
    ∃ command ∈ commands, command.referredType? = some name := by
  constructor
  · rintro ⟨type, member, is_class, name_eq⟩
    exact ⟨_, member, by rw [Command.referredType?, if_pos is_class, name_eq]⟩
  · rintro ⟨command, member, name_eq⟩
    cases command with
    | referType type =>
      rw [Command.referredType?] at name_eq
      split at name_eq
      next is_class => exact ⟨type, member, is_class, Option.some.inj name_eq⟩
      next => cases name_eq
    | _ => cases name_eq

theorem definesClass_iff : DefinesClass commands name ↔
    ∃ command ∈ commands, command.definedClass? = some name := by
  constructor
  · rintro ⟨fields, member⟩
    exact ⟨_, member, rfl⟩
  · rintro ⟨command, member, name_eq⟩
    cases command with
    | defineFields cls fields =>
      cases name_eq
      exact ⟨fields, member⟩
    | _ => cases name_eq

theorem refersToMethod_iff : RefersToMethod commands id ↔
    ∃ command ∈ commands, command.referredMethod? = some id := by
  constructor
  · intro member
    exact ⟨_, member, rfl⟩
  · rintro ⟨command, member, id_eq⟩
    cases command with
    | referMethod other =>
      cases id_eq
      exact member
    | _ => cases id_eq

theorem definesMethod_iff : DefinesMethod commands id ↔
    ∃ command ∈ commands, id ∈ command.definedMethods := by
  constructor
  · rintro ⟨ids, member, id_mem⟩
    exact ⟨_, member, id_mem⟩
  · rintro ⟨command, member, id_mem⟩
    cases command with
    | defineMethods ids => exact ⟨ids, member, id_mem⟩
    | _ => cases id_mem

theorem definesField_iff : DefinesField commands field cls ↔
    definesIn commands field cls = true := by
  rw [definesIn, List.any_eq_true]
  constructor
  · rintro ⟨fields, member, other, other_mem, name_eq, type_eq⟩
    refine ⟨_, member, ?_⟩
    simp only [Command.defines, Bool.and_eq_true, beq_iff_eq, List.any_eq_true]
    exact ⟨trivial, other, other_mem, name_eq, type_eq⟩
  · rintro ⟨command, member, defines⟩
    cases command with
    | defineFields owner fields =>
      simp only [Command.defines, Bool.and_eq_true, beq_iff_eq, List.any_eq_true] at defines
      obtain ⟨rfl, other, other_mem, name_eq, type_eq⟩ := defines
      exact ⟨fields, member, other, other_mem, name_eq, type_eq⟩
    | _ => cases defines

theorem isSome_declaringClass?_iff :
    ((history commands).state.declaringClass? field).isSome = true ↔ Declares commands field := by
  obtain ⟨above, lineage⟩ := exists_lineage_linkIn? commands field.owner
  have declaring_eq := declaringClass?_history lineage
  rw [declaring_eq, List.find?_isSome]
  apply exists_congr
  intro cls
  rw [lineage.mem_iff, definesField_iff]

end Iff

instance (commands : List Command) (field : FieldSig) : Decidable (Declares commands field) :=
  decidable_of_iff _ isSome_declaringClass?_iff

/-! ## What a registry reports -/

section Report

variable {hierarchy : Hierarchy} {commands : List Command} (knows : hierarchy.Knows commands)

include knows

theorem Knows.mem_phantomTypes_iff {name : String} : name ∈ hierarchy.phantomTypes ↔
    RefersToClass commands name ∧ ¬ DefinesClass commands name := by
  rw [phantomTypes, List.mem_filter, Std.TreeSet.mem_toList, knows.referredTypes,
    ← refersToClass_iff, definesClass_iff, ← knows.classes]
  simp

theorem Knows.mem_phantomMethods_iff {id : String} : id ∈ hierarchy.phantomMethods ↔
    RefersToMethod commands id ∧ ¬ DefinesMethod commands id := by
  rw [phantomMethods, List.mem_filter, Std.TreeSet.mem_toList, knows.referredMethods,
    ← refersToMethod_iff, definesMethod_iff, ← knows.methods]
  simp

end Report

theorem phantomFields_history (commands : List Command) :
    (history commands).state.phantomFields =
      (referredFields commands).countP fun field => ¬ Declares commands field := by
  rw [phantomFields, (knows_history commands).referredFields, referredFields]
  congr 1
  funext field
  rw [Bool.eq_iff_iff, decide_eq_true_iff, ← isSome_declaringClass?_iff]
  simp

theorem rowsOf_conclude {hierarchy : Hierarchy} {relation : Relation}
    (apart : ∀ access ∈ hierarchy.accesses.toList, access.relation ≠ relation) (phantoms : Bool) :
    rowsOf relation ((conclude phantoms).run hierarchy).events =
      rowsIn relation (hierarchy.phantomFacts phantoms) := by
  have unwritten : rowsIn relation (hierarchy.accesses.toList.map hierarchy.accessFact) = [] := by
    apply rowsIn_eq_nil
    intro fact member
    obtain ⟨access, access_mem, rfl⟩ := List.mem_map.1 member
    exact apart access access_mem
  change rowsIn relation (factsOf _) = _
  rw [(hierarchy.conclude_facts phantoms).2, rowsIn_append, unwritten, List.nil_append]

/-- The phantom entities of any history.  A conclusion behind some commands writes the field
accesses that wait for it, and then, if they are wanted, a row for each class and for each method
that the commands refer to and none of them defines, in the strictly increasing order of the code
points of their names.  It counts these classes and methods, and the references to fields, each as
often as it was made, that no class declares which can be reached from that of the reference through
super classes.  The counts are the same when no rows are wanted. -/
theorem phantoms_history (commands : List Command) :
    let registry := (history commands).state
    let wanted := (conclude true).run registry
    let unwanted := (conclude false).run registry
    let accessFacts := (waiting commands).map registry.accessFact
    ∃ types methods : List String,
      (types.Pairwise fun first second => codePoints first < codePoints second) ∧
      (∀ name, name ∈ types ↔ RefersToClass commands name ∧ ¬ DefinesClass commands name) ∧
      (methods.Pairwise fun first second => codePoints first < codePoints second) ∧
      (∀ id, id ∈ methods ↔ RefersToMethod commands id ∧ ¬ DefinesMethod commands id) ∧
      wanted.value =
        { types := types.length
          methods := methods.length
          fields := (referredFields commands).countP fun field => ¬ Declares commands field } ∧
      unwanted.value = wanted.value ∧
      factsOf wanted.events = accessFacts ++
        ((types.map fun name => ⟨.phantomType, [name]⟩) ++
          methods.map fun id => ⟨.phantomMethod, [id]⟩) ∧
      factsOf unwanted.events = accessFacts ∧
      ((∀ access ∈ waiting commands, access.relation ∉ phantomRelations) →
        rowsOf .phantomType wanted.events = (types.map fun name => [name]) ∧
        rowsOf .phantomMethod wanted.events = (methods.map fun id => [id]) ∧
        rowsOf .phantomType unwanted.events = [] ∧ rowsOf .phantomMethod unwanted.events = []) := by
  intro registry wanted unwanted accessFacts
  have knows := knows_history commands
  have accesses_eq : registry.accesses.toList = waiting commands := knows.accesses
  obtain ⟨wanted_value, wanted_facts⟩ := registry.conclude_facts true
  obtain ⟨unwanted_value, unwanted_facts⟩ := registry.conclude_facts false
  rw [accesses_eq] at wanted_facts unwanted_facts
  refine ⟨registry.phantomTypes, registry.phantomMethods,
    (pairwise_codePoints _).filter _, fun _ => knows.mem_phantomTypes_iff,
    (pairwise_codePoints _).filter _, fun _ => knows.mem_phantomMethods_iff,
    ?_, unwanted_value.trans wanted_value.symm, wanted_facts, ?_, fun apart => ?_⟩
  · rw [← phantomFields_history]
    exact wanted_value
  · exact unwanted_facts.trans (List.append_nil _)
  · have apart_from : ∀ relation ∈ phantomRelations, ∀ access ∈ registry.accesses.toList,
        access.relation ≠ relation := by
      intro relation phantom access member same
      rw [accesses_eq] at member
      exact apart access member (same ▸ phantom)
    have types_apart := apart_from .phantomType (by decide)
    have methods_apart := apart_from .phantomMethod (by decide)
    refine ⟨(rowsOf_conclude types_apart true).trans ?_,
      (rowsOf_conclude methods_apart true).trans ?_, rowsOf_conclude types_apart false,
      rowsOf_conclude methods_apart false⟩
    · rw [phantomFacts, if_pos rfl, rowsIn_append, rowsIn_map, rowsIn_map]
      simp
    · rw [phantomFacts, if_pos rfl, rowsIn_append, rowsIn_map, rowsIn_map]
      simp

/-- A class that is known, a library class that is referred to twice, and an inherited field. -/
def libraryUse : List Command :=
  let field (owner : String) : FieldSig :=
    { id := Identifier.field owner "int" "x", owner, name := "x", type := "int" }
  [.defineFields "a.Main" [field "a.Main"], .linkSuper "a.Sub" "a.Main",
    .referType (.object "a/Main"), .referType (.object "x/Lib"), .conclude true,
    .referType (.object "x/Lib"), .referType (.array (.object "x/Lib")),
    .referType (.primitive .int), .referField (field "a.Sub"), .referField (field "x.Lib"),
    .referField (field "x.Lib"),
    .queueAccesses [{ relation := .loadInstanceField, insn := "m/0", index := 0, var := "m/v0",
                      base := some "m/v1", field := field "a.Sub", method := "m" }]]

theorem phantoms_history_libraryUse :
    (∀ access ∈ waiting libraryUse, access.relation ∉ phantomRelations) ∧
    ∃ types : List String,
      rowsOf .phantomType ((conclude true).run (history libraryUse).state).events =
        (types.map fun name => [name]) ∧
      "x.Lib" ∈ types ∧ "a.Main" ∉ types := by
  have apart : ∀ access ∈ waiting libraryUse, access.relation ∉ phantomRelations := by
    simp [libraryUse, waiting, List.rtakeWhile, Command.phantoms?, Command.queued,
      phantomRelations]
  obtain ⟨types, methods, -, types_iff, -, -, -, -, -, -, rows⟩ := phantoms_history libraryUse
  refine ⟨apart, types, (rows apart).1, (types_iff "x.Lib").2 ⟨?_, ?_⟩, fun member => ?_⟩
  · exact ⟨.object "x/Lib", by simp [libraryUse], rfl, by decide⟩
  · rintro ⟨fields, member⟩
    simp [libraryUse] at member
  · apply ((types_iff "a.Main").1 member).2
    exact ⟨_, List.mem_cons_self⟩

end Hierarchy

end DalvikFacts
