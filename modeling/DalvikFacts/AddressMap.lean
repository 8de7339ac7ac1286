import DalvikFacts.Fact.Emit
import Std.Data.TreeMap

/-!
# Address maps

The indices of the instructions of a method by address, and the edges between them.  Edges are
queued with the address of their target, and resolved once all instructions are known.
-/

namespace DalvikFacts

/-- A control flow edge: of a branch, or of the case of a switch with its key. -/
structure Edge where
  relation : Relation
  insn : String
  index : Nat
  key : Option Int
  target : Option Address
  deriving DecidableEq

/-- The instructions of a method by address, and its queued edges in order. -/
@[ext]
structure AddressMap where
  indices : Std.TreeMap Address Nat
  edges : Array Edge

namespace AddressMap

/-- No address is known. -/
def empty : AddressMap := ⟨{}, #[]⟩

/-- An instruction starts at an address; it replaces an earlier one there. -/
def insert (map : AddressMap) (address : Address) (index : Nat) : AddressMap :=
  { map with indices := map.indices.insert address index }

/-- The index of the instruction that starts at an address. -/
def indexOf? (map : AddressMap) (address : Address) : Option Nat :=
  map.indices[address]?

/-- Queues an edge behind the others. -/
def queue (map : AddressMap) (edge : Edge) : AddressMap :=
  { map with edges := map.edges.push edge }

/-- Queues edges behind the others. -/
def queueAll (map : AddressMap) (edges : List Edge) : AddressMap :=
  { map with edges := map.edges.appendList edges }

/-- The index of the target of an edge, absent when it is not the start of an instruction. -/
def targetOf? (map : AddressMap) (edge : Edge) : Option Nat :=
  edge.target.bind map.indexOf?

/-- The row of an edge with a known target. -/
def edgeRow (method : String) (edge : Edge) (target : Nat) : List String :=
  match edge.key with
  | none => [edge.insn, toString edge.index, toString target, method]
  | some key => [edge.insn, toString key, toString target]

/-- Emits the row of an edge, or a notice when its target is unknown. -/
def writeEdge {σ : Type} (map : AddressMap) (method : String) (edge : Edge) : Emit σ Unit :=
  match map.targetOf? edge with
  | some target => Emit.row edge.relation (edgeRow method edge target)
  | none => Emit.notice (.unresolvedTarget edge.relation edge.index method)

/-- Emits the map in the order of addresses, then the edges in the order of their queueing. -/
def write {σ : Type} (map : AddressMap) (method : String) : Emit σ Unit := do
  map.indices.toList.forM fun (address, index) =>
    Emit.row .dexInstructionAddressMap [method, toString index, toString address]
  map.edges.toList.forM (map.writeEdge method)

/-- What is emitted for an edge. -/
def edgeEvent (map : AddressMap) (method : String) (edge : Edge) : Event :=
  match map.targetOf? edge with
  | some target => .fact ⟨edge.relation, edgeRow method edge target⟩
  | none => .notice (.unresolvedTarget edge.relation edge.index method)

/-- The row of an address. -/
def indexFact (method : String) (address : Address) (index : Nat) : Fact :=
  ⟨.dexInstructionAddressMap, [method, toString index, toString address]⟩

theorem writeEdge_eq {σ : Type} (map : AddressMap) (method : String) (edge : Edge) :
    (map.writeEdge method edge : Emit σ Unit) = Emit.event (map.edgeEvent method edge) := by
  unfold writeEdge edgeEvent
  split <;> rfl

theorem run_write {σ : Type} (map : AddressMap) (method : String) (state : σ) :
    (map.write method).run state =
      ⟨(), state, (map.indices.toList.map fun entry => .fact (indexFact method entry.1 entry.2)) ++
        map.edges.toList.map (map.edgeEvent method)⟩ := by
  have edges_eq : (map.writeEdge method : Edge → Emit σ Unit) =
      fun edge => Emit.event (map.edgeEvent method edge) :=
    funext (map.writeEdge_eq method)
  have edges := Emit.run_forM_event map.edges.toList (map.edgeEvent method) state
  have indices := Emit.run_forM_event map.indices.toList
    (fun entry => .fact (indexFact method entry.1 entry.2)) state
  unfold write
  rw [edges_eq]
  change (map.indices.toList.forM (fun entry =>
    Emit.event (.fact (indexFact method entry.1 entry.2))) >>= _).run state = _
  rw [Emit.run_bind, indices, edges]

/-- The number of edges with an unknown target. -/
def unresolved (map : AddressMap) : Nat :=
  map.edges.toList.countP fun edge => (map.targetOf? edge).isNone

/-- The map without edges. -/
def drop (map : AddressMap) : AddressMap :=
  { map with edges := #[] }

end AddressMap
end DalvikFacts
