import DalvikFacts.Proofs.Method.Addresses
import Std.Data.String.ToNat

/-!
# Rows of branches

A branch leads to the instruction that the address map has at its target.  A row is written for it
if there is one, and a warning is given if there is none; the relations of branches hold no other
rows.
-/

namespace DalvikFacts

namespace Identifier

theorem instruction_inj {method kind : String} {first second : Nat} :
    instruction method kind first = instruction method kind second ↔ first = second := by
  constructor
  · intro same
    exact Nat.repr_injective ((String.append_right_inj _).1 same)
  · rintro rfl
    rfl

end Identifier

/-- The index that an address map has at the target of an offset. -/
def LocatedInstr.targetIn? (here : LocatedInstr) (entries : List (Address × Nat)) (offset : Int) :
    Option Nat :=
  (Address.offset? here.address offset).bind fun address => entries.lookup address

/-- The row of a branch with a known target, if it belongs to a relation. -/
def LocatedInstr.branchRow? (method : String) (entries : List (Address × Nat))
    (relation : Relation) (here : LocatedInstr) : Option (List String) :=
  here.instr.branch?.bind fun branch =>
    if branch.relation = relation then
      (here.targetIn? entries branch.offset).map fun target =>
        [Identifier.instruction method branch.kind here.index, toString here.index,
          toString target, method]
    else none

theorem lookup_eq_some_iff_mem {entries : List (Address × Nat)}
    (keys_nodup : (entries.map Prod.fst).Nodup) {address : Address} {index : Nat} :
    entries.lookup address = some index ↔ (address, index) ∈ entries := by
  induction entries with
  | nil => simp
  | cons entry rest induction =>
    rw [List.map_cons, List.nodup_cons] at keys_nodup
    obtain ⟨fresh, rest_nodup⟩ := keys_nodup
    rw [List.lookup_cons, List.mem_cons]
    by_cases here : address = entry.1
    · have absent : (address, index) ∉ rest := by
        intro member
        exact fresh (here ▸ List.mem_map_of_mem member)
      simp [here ▸ absent, here, Prod.ext_iff, eq_comm]
    · have other : (address, index) ≠ entry := fun same => here (same ▸ rfl)
      rw [beq_eq_false_iff_ne.2 here]
      simp [other.symm, induction rest_nodup, eq_comm]

namespace AddressMap

variable (map : AddressMap) (method : String)

theorem keys_nodup : (map.indices.toList.map Prod.fst).Nodup := by
  rw [List.Nodup, List.pairwise_map]
  refine Std.TreeMap.ordered_keys_toList.imp ?_
  intro first second compare_eq
  exact UInt64.ne_of_lt (Std.compare_eq_lt.1 compare_eq)

theorem lookup_toList (address : Address) :
    map.indices.toList.lookup address = map.indexOf? address := by
  ext index
  rw [lookup_eq_some_iff_mem map.keys_nodup, Std.TreeMap.mem_toList_iff_getElem?_eq_some]
  rfl

theorem noticesOf_write :
    noticesOf ((map.write method : Emit Unit Unit).run ()).events =
      map.edges.toList.filterMap fun edge =>
        if map.targetOf? edge = none then
          some (.unresolvedTarget edge.relation edge.index method)
        else none := by
  rw [run_write, noticesOf_append]
  have indices_nil : noticesOf (map.indices.toList.map fun entry =>
      .fact (indexFact method entry.1 entry.2)) = [] := by
    rw [noticesOf, List.filterMap_map, List.filterMap_eq_nil_iff]
    intro entry member
    rfl
  rw [indices_nil, List.nil_append, noticesOf, List.filterMap_map]
  refine List.filterMap_congr fun edge member => ?_
  unfold edgeEvent
  cases target_eq : map.targetOf? edge with
  | none => simp [Event.notice?, target_eq]
  | some target => simp [Event.notice?, target_eq]

end AddressMap

namespace MethodContext

variable {cx : MethodContext} {instrs : List LocatedInstr} {queued : List Edge}

theorem Queues.filterMap_branches {β : Type} (queues : cx.Queues instrs queued)
    {result : Edge → Option β}
    (keyed_none : ∀ edge ∈ queued, edge.key.isNone = false → result edge = none) :
    queued.filterMap result =
      instrs.filterMap fun here => (here.branchEdge? cx.id).bind result := by
  rw [← List.filterMap_filterMap, ← queues.branches, List.filterMap_filter]
  refine List.filterMap_congr fun edge member => ?_
  split
  next => rfl
  next keyed => exact keyed_none edge member (Bool.eq_false_iff.2 keyed)

end MethodContext

namespace AddressMap

variable {cx : MethodContext} {instrs : List LocatedInstr} (map : AddressMap)
  (queues : cx.Queues instrs map.edges.toList) {relation : Relation}
  (of_branches : relation = .goto ∨ relation = .branch)

include queues of_branches

/-- The rows of a relation of branches, in a map that holds the edges of the instructions. -/
theorem rowsOf_branches :
    rowsOf relation ((map.write cx.id : Emit Unit Unit).run ()).events =
      instrs.filterMap (·.branchRow? cx.id map.indices.toList relation) := by
  have distinct : relation ≠ .dexInstructionAddressMap := by
    rcases of_branches with rfl | rfl <;> simp
  rw [map.rowsOf_write_edges _ distinct, queues.filterMap_branches]
  · refine List.filterMap_congr fun here _ => ?_
    unfold LocatedInstr.branchEdge? LocatedInstr.branchRow?
    cases here.instr.branch? with
    | none => rfl
    | some branch =>
      simp only [Option.map_some, Option.bind_some, targetOf?, LocatedInstr.targetIn?,
        map.lookup_toList]
      rfl
  · intro edge member keyed
    exact if_neg ((queues.wellFormed edge member).relation_ne keyed of_branches)

end AddressMap

namespace LocatedInstr

variable {method : String} {entries : List (Address × Nat)} {here other : LocatedInstr}
  {branch : Branch}

end LocatedInstr

namespace CodeItem

variable (code : CodeItem) (method : String) (entries : List (Address × Nat)) {here : LocatedInstr}
  {branch : Branch}

end CodeItem

end DalvikFacts
