import DalvikFacts.Hierarchy
import Mathlib.Data.List.Chain
import Mathlib.Data.List.Nodup
import Mathlib.Data.List.Perm.Subperm
import Mathlib.Logic.Relation

/-!
# Lineages of classes

A walk from a class to its super class, and on from there, passes every class that can be reached
in this way once, and then ends or comes back to a class that it has passed.  It takes no more steps
than there are links, so the class that declares a field is the first one on the walk that defines
it, on cyclic hierarchies too.
-/

namespace DalvikFacts

/-- A class has another one as its super class. -/
def Inherits (superOf? : String → Option String) (cls superName : String) : Prop :=
  superOf? cls = some superName

/-- A class can be reached from another one through super classes. -/
abbrev Reaches (superOf? : String → Option String) : String → String → Prop :=
  Relation.ReflTransGen (Inherits superOf?)

/-- The classes above a class that a walk passes: each is the super class of the one before it, none
comes twice, and nothing that can be reached is left out. -/
structure Lineage (superOf? : String → Option String) (cls : String) (above : List String) :
    Prop where
  linked : (cls :: above).IsChain (Inherits superOf?)
  distinct : (cls :: above).Nodup
  complete : ∀ passed ∈ cls :: above, ∀ superName, Inherits superOf? passed superName →
    superName ∈ cls :: above

namespace Lineage

variable {superOf? : String → Option String} {cls : String} {above : List String}

theorem mem_iff (lineage : Lineage superOf? cls above) {other : String} :
    other ∈ cls :: above ↔ Reaches superOf? cls other := by
  constructor
  · intro member
    refine lineage.linked.induction (Reaches superOf? cls ·) _ ?_ ?_ other member
    · intro passed next inherits reached
      exact reached.tail inherits
    · intro
      exact .refl
  · intro reached
    induction reached with
    | refl => exact List.mem_cons_self
    | tail reached inherits induction => exact lineage.complete _ induction _ inherits

end Lineage

namespace Hierarchy

variable {hierarchy : Hierarchy} {cls : String} {above : List String}

theorem mem_keys_of_mem_dropLast (linked : (cls :: above).IsChain (Inherits hierarchy.superOf?))
    {passed : String} (member : passed ∈ (cls :: above).dropLast) :
    passed ∈ hierarchy.supers.keys := by
  induction above generalizing cls with
  | nil => cases member
  | cons next rest induction =>
    obtain ⟨inherits, rest_linked⟩ := List.isChain_cons_cons.1 linked
    rw [List.dropLast_cons_cons] at member
    rcases List.mem_cons.1 member with rfl | later
    · have linked_to : hierarchy.supers[passed]? = some next := inherits
      rw [Std.HashMap.mem_keys, Std.HashMap.mem_iff_isSome_getElem?, linked_to]
      rfl
    · exact induction rest_linked later

theorem length_le_size_supers (linked : (cls :: above).IsChain (Inherits hierarchy.superOf?))
    (distinct : (cls :: above).Nodup) : above.length ≤ hierarchy.supers.size := by
  have passed_nodup : (cls :: above).dropLast.Nodup :=
    distinct.sublist (List.dropLast_sublist _)
  have passed_subset : (cls :: above).dropLast ⊆ hierarchy.supers.keys :=
    fun passed member => mem_keys_of_mem_dropLast linked member
  have length_le := (List.subperm_of_subset passed_nodup passed_subset).length_le
  rw [List.length_dropLast, Std.HashMap.length_keys] at length_le
  exact length_le

theorem exists_longer (linked : (cls :: above).IsChain (Inherits hierarchy.superOf?))
    (distinct : (cls :: above).Nodup) (incomplete : ¬ Lineage hierarchy.superOf? cls above) :
    ∃ next, (cls :: (above ++ [next])).IsChain (Inherits hierarchy.superOf?) ∧
      (cls :: (above ++ [next])).Nodup := by
  have left_out : ∃ passed ∈ cls :: above, ∃ superName,
      Inherits hierarchy.superOf? passed superName ∧ superName ∉ cls :: above := by
    by_contra nothing
    push Not at nothing
    exact incomplete ⟨linked, distinct, nothing⟩
  obtain ⟨passed, member, next, inherits, outside⟩ := left_out
  obtain ⟨front, back, split_eq⟩ := List.append_of_mem member
  refine ⟨next, ?_, ?_⟩
  · rw [← List.cons_append]
    refine linked.append (.singleton next) fun last last_eq other other_eq => ?_
    cases other_eq
    cases back with
    | nil =>
      rw [split_eq, List.getLast?_concat] at last_eq
      cases last_eq
      exact inherits
    | cons above_passed rest =>
      rw [split_eq, List.isChain_append_cons_cons] at linked
      have same : some above_passed = some next := linked.2.1.symm.trans inherits
      cases same
      exact absurd (by simp [split_eq]) outside
  · rw [← List.cons_append]
    exact List.nodup_append.2 ⟨distinct, List.nodup_singleton next, fun other other_mem last
      last_mem same => outside (List.mem_singleton.1 last_mem ▸ same ▸ other_mem)⟩

/-- Every walk through super classes passes all that it can reach, and ends. -/
theorem exists_lineage (hierarchy : Hierarchy) (cls : String) :
    ∃ above, Lineage hierarchy.superOf? cls above := by
  by_contra endless
  push Not at endless
  have long : ∀ count, ∃ above : List String, above.length = count ∧
      (cls :: above).IsChain (Inherits hierarchy.superOf?) ∧ (cls :: above).Nodup := by
    intro count
    induction count with
    | zero => exact ⟨[], rfl, .singleton cls, List.nodup_singleton cls⟩
    | succ count induction =>
      obtain ⟨above, rfl, linked, distinct⟩ := induction
      obtain ⟨next, longer_linked, longer_distinct⟩ :=
        exists_longer linked distinct (endless above)
      exact ⟨above ++ [next], by simp, longer_linked, longer_distinct⟩
  obtain ⟨above, length_eq, linked, distinct⟩ := long (hierarchy.supers.size + 1)
  have length_le := length_le_size_supers linked distinct
  omega

theorem firstWithin_eq_some {property : String → Bool} {steps : Nat} {found : String}
    (linked : (cls :: above).IsChain (Inherits hierarchy.superOf?)) (within : above.length ≤ steps)
    (found_eq : (cls :: above).find? property = some found) :
    hierarchy.firstWithin property steps cls = some found := by
  induction above generalizing cls steps with
  | nil =>
    unfold firstWithin
    rw [List.find?_singleton] at found_eq
    split at found_eq
    next holds => rw [if_pos holds, found_eq]
    next => cases found_eq
  | cons next rest induction =>
    obtain ⟨inherits, rest_linked⟩ := List.isChain_cons_cons.1 linked
    unfold firstWithin
    rw [List.find?_cons] at found_eq
    split at found_eq
    next holds => rw [if_pos holds, found_eq]
    next fails =>
      obtain ⟨fewer, rfl⟩ : ∃ fewer, steps = fewer + 1 :=
        Nat.exists_eq_add_one.2 (Nat.lt_of_lt_of_le (Nat.succ_pos _) within)
      have super_eq : hierarchy.superOf? cls = some next := inherits
      rw [if_neg (by simp [fails]), super_eq]
      exact induction rest_linked (Nat.le_of_succ_le_succ within) found_eq

theorem reaches_of_firstWithin {property : String → Bool} {steps : Nat} {found : String}
    (found_eq : hierarchy.firstWithin property steps cls = some found) :
    property found = true ∧ Reaches hierarchy.superOf? cls found := by
  induction steps generalizing cls with
  | zero =>
    unfold firstWithin at found_eq
    split at found_eq
    next holds => cases found_eq; exact ⟨holds, .refl⟩
    next => cases found_eq
  | succ steps induction =>
    unfold firstWithin at found_eq
    split at found_eq
    next holds => cases found_eq; exact ⟨holds, .refl⟩
    next =>
      cases super_eq : hierarchy.superOf? cls with
      | none => rw [super_eq] at found_eq; cases found_eq
      | some next =>
        rw [super_eq] at found_eq
        obtain ⟨holds, reached⟩ := induction found_eq
        exact ⟨holds, .head super_eq reached⟩

/-- The class that declares a field is the first one on the walk that defines it. -/
theorem declaringClass?_eq_find? {field : FieldSig}
    (lineage : Lineage hierarchy.superOf? field.owner above) :
    hierarchy.declaringClass? field = (field.owner :: above).find? (hierarchy.defines field) := by
  unfold declaringClass?
  cases found_eq : (field.owner :: above).find? (hierarchy.defines field) with
  | some found =>
    have within := length_le_size_supers lineage.linked lineage.distinct
    exact firstWithin_eq_some lineage.linked within found_eq
  | none =>
    rw [Option.eq_none_iff_forall_not_mem]
    intro found walked
    obtain ⟨defined, reached⟩ := reaches_of_firstWithin walked
    have undefined := List.find?_eq_none.1 found_eq found (lineage.mem_iff.2 reached)
    exact undefined defined

end Hierarchy

end DalvikFacts
