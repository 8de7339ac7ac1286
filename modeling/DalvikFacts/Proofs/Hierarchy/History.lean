import DalvikFacts.Proofs.Hierarchy.Lineage
import DalvikFacts.Proofs.Run.Conclusion
import Mathlib.Data.List.DropRight

/-!
# Histories of hierarchies

What a registry holds and has written can be told from the commands that it was given.  A field
access waits from the command that queues it to the next conclusion, which writes its row with the
field of the class that declares it at that moment.
-/

namespace DalvikFacts

namespace Hierarchy

/-- A command to the registry of the hierarchy. -/
inductive Command
  | linkSuper (cls superName : String)
  | defineFields (cls : String) (fields : List FieldSig)
  | defineMethods (ids : List String)
  | queueAccesses (accesses : List FieldAccess)
  | referField (field : FieldSig)
  | referType (type : Descriptor)
  | referMethod (id : String)
  | conclude (phantoms : Bool)

namespace Command

/-- Carries out a command; a link that contradicts a former one is refused. -/
def perform : Command → Emit Hierarchy Unit
  | linkSuper cls superName => do
    match (← get).linkSuper cls superName with
    | .ok linked => set linked
    | .error _ => pure ()
  | defineFields cls fields => modify (·.defineFields cls fields)
  | defineMethods ids => modify (·.defineMethods ids)
  | queueAccesses accesses => modify (·.queueAccesses accesses)
  | referField field => modify (·.referField field)
  | referType type => modify (·.referType type)
  | referMethod id => modify (·.referMethod id)
  | conclude phantoms => do
    let _ ← Hierarchy.conclude phantoms

/-- The field accesses that a command queues. -/
def queued : Command → List FieldAccess
  | queueAccesses accesses => accesses
  | _ => []

/-- Whether a conclusion writes phantom entities. -/
def phantoms? : Command → Option Bool
  | conclude phantoms => some phantoms
  | _ => none

/-- The super class that a command gives to a class. -/
def link? (cls : String) : Command → Option String
  | linkSuper sub superName => if sub = cls then some superName else none
  | _ => none

/-- Whether a command registers a field of the name and type of a reference for a class. -/
def defines (field : FieldSig) (cls : String) : Command → Bool
  | defineFields owner fields =>
    owner == cls && fields.any fun other => other.name == field.name && other.type == field.type
  | _ => false

end Command

/-- The registry after some commands, with all that they have written. -/
def history (commands : List Command) : Emitted Hierarchy Unit :=
  (commands.forM Command.perform : Emit Hierarchy Unit).run .empty

/-- The super class of a class after some commands: the first one that it was given. -/
def linkIn? (commands : List Command) (cls : String) : Option String :=
  commands.findSome? (·.link? cls)

/-- Whether a class has a field of the name and type of a reference after some commands. -/
def definesIn (commands : List Command) (field : FieldSig) (cls : String) : Bool :=
  commands.any (·.defines field cls)

/-- The field accesses queued since the last conclusion. -/
def waiting (commands : List Command) : List FieldAccess :=
  (commands.rtakeWhile (·.phantoms?.isNone)).flatMap Command.queued

/-- The conclusions among some commands, each with the commands before it. -/
def conclusions (commands : List Command) : List (List Command × Bool) :=
  commands.zipIdx.filterMap fun (command, position) =>
    command.phantoms?.map (commands.take position, ·)

/-! ## One more command -/

theorem history_concat (commands : List Command) (command : Command) :
    history (commands ++ [command]) =
      let step := command.perform.run (history commands).state
      ⟨(), step.state, (history commands).events ++ step.events⟩ := by
  change (forM (commands ++ [command]) Command.perform : Emit Hierarchy Unit).run .empty = _
  rw [List.forM_append, List.forM_cons, List.forM_nil, bind_pure_unit]
  rfl

theorem conclusions_concat (commands : List Command) (command : Command) :
    conclusions (commands ++ [command]) =
      conclusions commands ++ (command.phantoms?.map (commands, ·)).toList := by
  have earlier : ∀ entry ∈ commands.zipIdx,
      entry.1.phantoms?.map ((commands ++ [command]).take entry.2, ·) =
        entry.1.phantoms?.map (commands.take entry.2, ·) := by
    rintro ⟨other, position⟩ member
    have inside := (List.mem_zipIdx' member).1
    rw [List.take_append_of_le_length (Nat.le_of_lt inside)]
  unfold conclusions
  rw [List.zipIdx_append, List.filterMap_append, List.filterMap_congr earlier]
  cases phantoms_eq : command.phantoms? <;> simp [phantoms_eq]

theorem waiting_concat (commands : List Command) (command : Command) :
    waiting (commands ++ [command]) =
      if command.phantoms?.isNone then waiting commands ++ command.queued else [] := by
  unfold waiting
  rw [List.rtakeWhile_concat]
  split <;> simp

theorem linkIn?_append (commands later : List Command) (cls : String) :
    linkIn? (commands ++ later) cls = (linkIn? commands cls).or (linkIn? later cls) :=
  List.findSome?_append

theorem linkIn?_concat (commands : List Command) (command : Command) (cls : String) :
    linkIn? (commands ++ [command]) cls = (linkIn? commands cls).or (command.link? cls) :=
  (linkIn?_append ..).trans (congrArg _ List.findSome?_singleton)

theorem state_conclude (hierarchy : Hierarchy) (phantoms : Bool) :
    ((conclude phantoms).run hierarchy).state = { hierarchy with accesses := #[] } := by
  rw [run_conclude]

namespace Command

variable (command : Command) (hierarchy : Hierarchy)

theorem state_perform_conclude (phantoms : Bool) :
    ((conclude phantoms).perform.run hierarchy).state = { hierarchy with accesses := #[] } :=
  hierarchy.state_conclude phantoms

/-- A link counts when it is the first one of its class. -/
theorem state_perform_linkSuper (cls superName : String) :
    ((linkSuper cls superName).perform.run hierarchy).state =
      if (hierarchy.superOf? cls).isSome then hierarchy
      else { hierarchy with supers := hierarchy.supers.insert cls superName } := by
  rw [perform, Emit.run_bind, Emit.run_get]
  cases super_eq : hierarchy.superOf? cls with
  | none =>
    rw [linkSuper_of_new super_eq]
    rfl
  | some previous =>
    rw [linkSuper_of_superOf? super_eq]
    by_cases same : previous = superName <;> simp [same]

/-- A command gives a super class to a class that has none. -/
theorem superOf?_perform (cls : String) :
    (command.perform.run hierarchy).state.superOf? cls =
      (hierarchy.superOf? cls).or (command.link? cls) := by
  cases command with
  | linkSuper sub superName =>
    rw [state_perform_linkSuper, link?]
    by_cases own : sub = cls
    · subst own
      cases super_eq : hierarchy.superOf? sub with
      | some previous => exact super_eq
      | none => simp [superOf?]
    · rw [if_neg own, Option.or_none]
      split
      next => rfl
      next => exact Std.HashMap.getElem?_insert.trans (if_neg (by simp [own]))
  | conclude phantoms =>
    rw [state_perform_conclude]
    exact (Option.or_none ..).symm
  | referType type =>
    change (Hierarchy.referType hierarchy type).superOf? cls = _
    unfold Hierarchy.referType
    split <;> exact (Option.or_none ..).symm
  | _ => exact (Option.or_none ..).symm

theorem defines_perform (field : FieldSig) (cls : String) :
    (command.perform.run hierarchy).state.defines field cls =
      (hierarchy.defines field cls || command.defines field cls) := by
  cases command with
  | linkSuper sub superName =>
    rw [state_perform_linkSuper]
    split <;> exact (Bool.or_false _).symm
  | defineFields owner fields =>
    have inserted : ((defineFields owner fields).perform.run hierarchy).state.defines field cls =
        (hierarchy.definedFields.insertMany (fields.map fun other =>
          (⟨owner, other.name, other.type⟩ : DefinedField))).contains
            ⟨cls, field.name, field.type⟩ := rfl
    have listed :
        (fields.map fun other => (⟨owner, other.name, other.type⟩ : DefinedField)).contains
          ⟨cls, field.name, field.type⟩ = (defineFields owner fields).defines field cls := by
      rw [Bool.eq_iff_iff]
      simp only [defines, List.contains_iff_mem, List.mem_map, DefinedField.mk.injEq,
        Bool.and_eq_true, beq_iff_eq, List.any_eq_true]
      constructor
      · rintro ⟨other, member, owner_eq, name_eq, type_eq⟩
        exact ⟨owner_eq, other, member, name_eq, type_eq⟩
      · rintro ⟨owner_eq, other, member, name_eq, type_eq⟩
        exact ⟨other, member, owner_eq, name_eq, type_eq⟩
    rw [inserted, Std.HashSet.contains_insertMany_list, listed]
    rfl
  | conclude phantoms =>
    rw [state_perform_conclude]
    exact (Bool.or_false _).symm
  | referType type =>
    change (Hierarchy.referType hierarchy type).defines field cls = _
    unfold Hierarchy.referType
    split <;> exact (Bool.or_false _).symm
  | _ => exact (Bool.or_false _).symm

theorem accesses_perform :
    (command.perform.run hierarchy).state.accesses.toList =
      if command.phantoms?.isNone then hierarchy.accesses.toList ++ command.queued else [] := by
  cases command with
  | linkSuper sub superName =>
    rw [state_perform_linkSuper]
    split <;> exact (List.append_nil _).symm
  | queueAccesses accesses => exact Array.toList_appendList
  | conclude phantoms =>
    rw [state_perform_conclude]
    rfl
  | referType type =>
    change (Hierarchy.referType hierarchy type).accesses.toList = hierarchy.accesses.toList ++ []
    unfold Hierarchy.referType
    split <;> exact (List.append_nil _).symm
  | _ => exact (List.append_nil _).symm

end Command

/-- A registry holds what some commands have told it. -/
structure Holds (hierarchy : Hierarchy) (commands : List Command) : Prop where
  supers : ∀ cls, hierarchy.superOf? cls = linkIn? commands cls
  fields : ∀ field cls, hierarchy.defines field cls = definesIn commands field cls
  accesses : hierarchy.accesses.toList = waiting commands

namespace Holds

variable {hierarchy : Hierarchy} {commands : List Command} (holds : hierarchy.Holds commands)

include holds

/-- What a registry holds after one more command. -/
theorem perform (command : Command) :
    (command.perform.run hierarchy).state.Holds (commands ++ [command]) where
  supers cls := by
    rw [command.superOf?_perform, holds.supers, linkIn?_concat]
  fields field cls := by
    rw [command.defines_perform, holds.fields]
    simp [definesIn]
  accesses := by
    rw [command.accesses_perform, holds.accesses, waiting_concat]

theorem factsOf_perform (command : Command) :
    factsOf (command.perform.run hierarchy).events =
      command.phantoms?.elim [] fun phantoms =>
        ((waiting commands).map fun access =>
          ⟨access.relation, access.columns (hierarchy.resolvedId access.field)⟩) ++
            hierarchy.phantomFacts phantoms := by
  cases command with
  | conclude phantoms =>
    have facts_eq := (hierarchy.conclude_facts phantoms).2
    rw [holds.accesses] at facts_eq
    refine Eq.trans ?_ facts_eq
    change factsOf (((Hierarchy.conclude phantoms).run hierarchy).events ++ []) = _
    rw [List.append_nil]
  | linkSuper cls superName =>
    simp only [Command.perform, Emit.run_bind, Emit.run_get]
    split <;> rfl
  | _ => rfl

end Holds

theorem holds_empty : empty.Holds [] where
  supers _ := Std.HashMap.getElem?_empty
  fields _ _ := Std.HashSet.contains_empty
  accesses := rfl

theorem holds_history (commands : List Command) : (history commands).state.Holds commands := by
  induction commands using List.reverseRecOn with
  | nil => exact holds_empty
  | append_singleton commands command induction =>
    rw [history_concat]
    exact induction.perform command

/-- Each conclusion of a history writes the field accesses that wait for it, then the phantom
entities if they are wanted. -/
theorem factsOf_history (commands : List Command) :
    factsOf (history commands).events = (conclusions commands).flatMap fun (known, phantoms) =>
      ((waiting known).map fun access =>
        ⟨access.relation, access.columns ((history known).state.resolvedId access.field)⟩) ++
          (history known).state.phantomFacts phantoms := by
  induction commands using List.reverseRecOn with
  | nil => rfl
  | append_singleton commands command induction =>
    rw [history_concat, conclusions_concat, List.flatMap_append, ← induction]
    dsimp only
    rw [factsOf_append, (holds_history commands).factsOf_perform]
    cases command.phantoms? with
    | none => rfl
    | some phantoms => simp

/-- Each queued field access waits for just one conclusion, or still waits. -/
theorem queued_history (commands : List Command) :
    commands.flatMap Command.queued =
      ((conclusions commands).flatMap fun (known, _) => waiting known) ++ waiting commands := by
  induction commands using List.reverseRecOn with
  | nil => rfl
  | append_singleton commands command induction =>
    rw [List.flatMap_append, induction, conclusions_concat, waiting_concat, List.flatMap_append]
    cases command with
    | conclude phantoms => simp [Command.phantoms?, Command.queued]
    | _ => simp [Command.phantoms?]

/-- The class that declares a field, as its history tells: the first one with such a field on the
walk from the class of the reference through the super classes. -/
theorem declaringClass?_history {commands : List Command} {field : FieldSig} {above : List String}
    (lineage : Lineage (linkIn? commands) field.owner above) :
    (history commands).state.declaringClass? field =
      (field.owner :: above).find? (definesIn commands field) := by
  have holds := holds_history commands
  have supers_eq : (history commands).state.superOf? = linkIn? commands := funext holds.supers
  have fields_eq : (history commands).state.defines field = definesIn commands field :=
    funext (holds.fields field)
  rw [← supers_eq] at lineage
  rw [declaringClass?_eq_find? lineage, fields_eq]

theorem exists_lineage_linkIn? (commands : List Command) (cls : String) :
    ∃ above, Lineage (linkIn? commands) cls above := by
  have supers_eq : (history commands).state.superOf? = linkIn? commands :=
    funext (holds_history commands).supers
  rw [← supers_eq]
  exact (history commands).state.exists_lineage cls

/-- An access means the field of the class that declares it, the reference itself without one. -/
theorem resolvedId_ofRef (hierarchy : Hierarchy) (ref : FieldRef) :
    hierarchy.resolvedId (.ofRef ref) =
      match hierarchy.declaringClass? (.ofRef ref) with
      | some cls => Identifier.field cls (FieldSig.ofRef ref).type (FieldSig.ofRef ref).name
      | none => (FieldSig.ofRef ref).id := by
  unfold resolvedId
  cases hierarchy.declaringClass? (.ofRef ref) with
  | none => rfl
  | some cls =>
    dsimp only
    split
    next own => rw [own]; rfl
    next => rfl

end Hierarchy

end DalvikFacts
