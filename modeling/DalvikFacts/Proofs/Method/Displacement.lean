import DalvikFacts.Proofs.Method.Outputs
import DalvikFacts.Proofs.Method.Relocation
import DalvikFacts.Proofs.Pending
import Mathlib.Data.List.Forall2
import Mathlib.Data.List.Sort

/-!
# States moved by a distance

The states of two extractions, of a body and of the same body moved by a distance, agree up to that
distance.  They differ before the moved start: an offset to a place before the entry leads nowhere
in the one state, and to an address without instruction in the other.  Only an offset can lead to an
address that wraps around when it is moved, and no instruction stands there in either state.
-/

namespace DalvikFacts

variable {distance : Address}

/-! ## Pending references -/

namespace Pending

variable {α : Type}

/-- A table whose entries wait for addresses moved by a distance, and are changed accordingly.  What
waits for an address before the moved start, or for one that wraps around, does not matter. -/
def Shifts (distance : Address) (change : α → α) (pending moved : Pending α) : Prop :=
  ∀ address : Address, address.Clear distance →
    moved.waitingAt (address + distance) = (pending.waitingAt address).map change

namespace Shifts

variable {change : α → α} {pending moved : Pending α}

theorem empty (change : α → α) : (Pending.empty : Pending α).Shifts distance change .empty :=
  fun _ _ => by simp [waitingAt, Pending.empty]

theorem register (shifts : pending.Shifts distance change moved) (address : Address) (entry : α) :
    (pending.register address entry).Shifts distance change
      (moved.register (address + distance) (change entry)) := by
  intro other clear
  rw [waitingAt_register, waitingAt_register, shifts other clear]
  simp only [UInt64.add_left_inj]
  split
  next here => rw [here, shifts other clear, List.map_append, List.map_singleton]
  next => rfl

theorem register_before (shifts : pending.Shifts distance change moved) {address : Address}
    (before : address < distance) (entry : α) :
    pending.Shifts distance change (moved.register address entry) := by
  intro other clear
  have apart : address ≠ other + distance :=
    UInt64.ne_of_lt (UInt64.lt_of_lt_of_le before clear.le_add)
  rw [waitingAt_register, if_neg apart, shifts other clear]

theorem release (shifts : pending.Shifts distance change moved) (address : Address) :
    (pending.release address).Shifts distance change (moved.release (address + distance)) := by
  intro other clear
  rw [waitingAt_release, waitingAt_release, shifts other clear]
  simp only [UInt64.add_left_inj]
  split <;> rfl

end Shifts
end Pending

/-! ## Edges and address maps -/

/-- An edge whose target is moved by a distance. -/
structure Edge.Shifts (distance : Address) (edge moved : Edge) : Prop where
  relation_eq : moved.relation = edge.relation
  insn_eq : moved.insn = edge.insn
  index_eq : moved.index = edge.index
  key_eq : moved.key = edge.key
  target : Address.Moves distance edge.target moved.target

namespace AddressMap

/-- A map with all addresses moved by a distance. -/
structure Shifts (distance : Address) (map moved : AddressMap) : Prop where
  indexOf?_add : ∀ address, moved.indexOf? (address + distance) = map.indexOf? address
  indexOf?_before : ∀ address, address < distance → moved.indexOf? address = none
  edges : List.Forall₂ (Edge.Shifts distance) map.edges.toList moved.edges.toList

theorem indexOf?_insert (map : AddressMap) (address other : Address) (index : Nat) :
    (map.insert address index).indexOf? other =
      if address = other then some index else map.indexOf? other := by
  unfold indexOf? insert
  rw [Std.TreeMap.getElem?_insert]
  simp only [Std.compare_eq_iff_eq]

namespace Shifts

variable {map moved : AddressMap}

theorem empty : AddressMap.empty.Shifts distance .empty where
  indexOf?_add _ := by simp [indexOf?, AddressMap.empty]
  indexOf?_before _ _ := by simp [indexOf?, AddressMap.empty]
  edges := .nil

theorem insert (shifts : map.Shifts distance moved) {address : Address}
    (clear : address.Clear distance) (index : Nat) :
    (map.insert address index).Shifts distance (moved.insert (address + distance) index) where
  indexOf?_add other := by
    rw [indexOf?_insert, indexOf?_insert, shifts.indexOf?_add]
    simp only [UInt64.add_left_inj]
  indexOf?_before other before := by
    have apart : address + distance ≠ other :=
      (UInt64.ne_of_lt (UInt64.lt_of_lt_of_le before clear.le_add)).symm
    rw [indexOf?_insert, if_neg apart, shifts.indexOf?_before other before]
  edges := shifts.edges

theorem queueAll (shifts : map.Shifts distance moved) {queued others : List Edge}
    (alike : List.Forall₂ (Edge.Shifts distance) queued others) :
    (map.queueAll queued).Shifts distance (moved.queueAll others) where
  indexOf?_add := shifts.indexOf?_add
  indexOf?_before := shifts.indexOf?_before
  edges := by
    change List.Forall₂ _ (map.edges ++ queued).toList (moved.edges ++ others).toList
    rw [Array.toList_appendList, Array.toList_appendList]
    exact List.rel_append shifts.edges alike

theorem queue (shifts : map.Shifts distance moved) {edge other : Edge}
    (alike : edge.Shifts distance other) :
    (map.queue edge).Shifts distance (moved.queue other) where
  indexOf?_add := shifts.indexOf?_add
  indexOf?_before := shifts.indexOf?_before
  edges := by
    change List.Forall₂ _ (map.edges.push edge).toList (moved.edges.push other).toList
    rw [Array.toList_push, Array.toList_push]
    exact List.rel_append shifts.edges (.cons alike .nil)

theorem targetOf?_eq (shifts : map.Shifts distance moved) {edge other : Edge}
    (alike : edge.Shifts distance other) : moved.targetOf? other = map.targetOf? edge := by
  have moves := alike.target
  rw [targetOf?, targetOf?]
  generalize edge.target = target, other.target = reached at moves ⊢
  cases moves with
  | along target => exact shifts.indexOf?_add target
  | missing => rfl
  | before ahead => exact shifts.indexOf?_before _ ahead

/-- Edges are reported alike. -/
theorem edgeEvents_eq (shifts : map.Shifts distance moved) (method : String) :
    moved.edges.toList.map (moved.edgeEvent method) =
      map.edges.toList.map (map.edgeEvent method) := by
  have alike : ∀ edge other, edge.Shifts distance other →
      moved.edgeEvent method other = map.edgeEvent method edge := by
    intro edge other same
    unfold edgeEvent edgeRow
    rw [shifts.targetOf?_eq same, same.relation_eq, same.insn_eq, same.index_eq, same.key_eq]
  exact List.forall₂_eq_eq_eq ▸ List.forall₂_map_left_iff.2 (List.forall₂_map_right_iff.2
    (shifts.edges.flip.imp fun other edge same => alike edge other same))

theorem clear (shifts : map.Shifts distance moved) {address : Address} {index : Nat}
    (known : map.indexOf? address = some index) : address.Clear distance := by
  by_contra wraps
  have missing := shifts.indexOf?_before _ (Address.add_lt_of_not_clear wraps)
  rw [shifts.indexOf?_add, known] at missing
  cases missing

/-- The entries of a moved map are those of the map, in the same order. -/
theorem toList_indices (shifts : map.Shifts distance moved) :
    moved.indices.toList =
      map.indices.toList.map fun entry => (entry.1 + distance, entry.2) := by
  let ahead (first second : Address × Nat) : Prop := first.1 < second.1
  have irrefl : Std.Irrefl ahead := ⟨fun entry => UInt64.lt_irrefl entry.1⟩
  have antisymm : Std.Antisymm ahead := ⟨fun _ _ lt gt => absurd gt (UInt64.lt_asymm lt)⟩
  have ordered : ∀ indices : Std.TreeMap Address Nat, indices.toList.Pairwise ahead :=
    fun _ => Std.TreeMap.ordered_keys_toList.imp Std.compare_eq_lt.1
  have moved_ordered : (map.indices.toList.map fun entry =>
      (entry.1 + distance, entry.2)).Pairwise ahead := by
    refine List.pairwise_map.2 (List.Pairwise.imp_of_mem ?_ (ordered _))
    intro first second first_mem second_mem lt
    have first_clear := shifts.clear (Std.TreeMap.mem_toList_iff_getElem?_eq_some.1 first_mem)
    have second_clear := shifts.clear (Std.TreeMap.mem_toList_iff_getElem?_eq_some.1 second_mem)
    exact (first_clear.add_lt_add_iff second_clear).2 lt
  refine (ordered _).eq_of_mem_iff moved_ordered fun ⟨address, index⟩ => ?_
  rw [Std.TreeMap.mem_toList_iff_getElem?_eq_some, List.mem_map]
  constructor
  · intro found
    have address_eq : address - distance + distance = address := UInt64.sub_add_cancel _ _
    have known : map.indices[address - distance]? = some index := by
      refine (shifts.indexOf?_add (address - distance)).symm.trans ?_
      rw [address_eq]
      exact found
    exact ⟨(address - distance, index), Std.TreeMap.mem_toList_iff_getElem?_eq_some.2 known,
      Prod.ext address_eq rfl⟩
  · rintro ⟨⟨origin, number⟩, member, same⟩
    cases same
    have known := Std.TreeMap.mem_toList_iff_getElem?_eq_some.1 member
    exact (shifts.indexOf?_add origin).trans known

end Shifts
end AddressMap

/-! ## States -/

/-- A switch moved by a distance. -/
def SwitchUse.relocate (distance : Address) (use : SwitchUse) : SwitchUse :=
  { use with address := use.address + distance }

/-- A caught exception moved by a distance. -/
def CaughtException.relocate (distance : Address) (caught : CaughtException) : CaughtException :=
  { caught with address := caught.address + distance }

namespace MethodState

/-- A state with all addresses moved by a distance. -/
structure Shifts (distance : Address) (state moved : MethodState) : Prop where
  declared_eq : moved.declared = state.declared
  counters_eq : moved.counters = state.counters
  carry_eq : moved.carry = state.carry
  accesses_eq : moved.accesses = state.accesses
  addresses : state.addresses.Shifts distance moved.addresses
  fills : state.fills.Shifts distance id moved.fills
  switches : state.switches.Shifts distance (·.relocate distance) moved.switches
  uses_clear : ∀ address, ∀ use ∈ state.switches.waitingAt address, use.address.Clear distance
  catches_eq : moved.catches.toList = state.catches.toList.map (·.relocate distance)

namespace Shifts

variable {state moved : MethodState} (shifts : state.Shifts distance moved)

theorem start : MethodState.start.Shifts distance .start where
  declared_eq := rfl
  counters_eq := rfl
  carry_eq := rfl
  accesses_eq := rfl
  addresses := .empty
  fills := .empty _
  switches := .empty _
  uses_clear _ _ member := by simp [MethodState.start, Pending.waitingAt, Pending.empty] at member
  catches_eq := rfl

include shifts

theorem withDeclared (declared : Std.HashSet String) :
    (state.withDeclared declared).Shifts distance (moved.withDeclared declared) :=
  { shifts with declared_eq := rfl }

theorem withCarry (change : CarryOver → CarryOver) :
    (state.withCarry change).Shifts distance (moved.withCarry change) :=
  { shifts with carry_eq := congrArg change shifts.carry_eq }

theorem count (kind : String) : (state.count kind).Shifts distance (moved.count kind) :=
  { shifts with counters_eq := congrArg (·.advance kind) shifts.counters_eq }

theorem reach {address : Address} (clear : address.Clear distance) (index : Nat) :
    (state.reach address index).Shifts distance (moved.reach (address + distance) index) :=
  { shifts with addresses := shifts.addresses.insert clear index }

end Shifts
end MethodState

end DalvikFacts
