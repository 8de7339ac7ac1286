import DalvikFacts.Proofs.Method.Failure
import Mathlib.Data.List.Sort
import Mathlib.Tactic.IntervalCases

/-!
# Rows of the address map

The address map of a method holds the largest index located at each address, the end of the body
included.  So its rows come in increasing order of addresses, and an index is missing only when an
instruction takes no room.  The indices increase as well as long as no address wraps around; behind
the last address the map starts again at its front.
-/

namespace DalvikFacts

/-- The largest index located at an address, if there is one. -/
def CodeItem.IsLastAt (code : CodeItem) (address : Address) (index : Nat) : Prop :=
  1 ≤ index ∧ index ≤ code.instructions.length + 1 ∧ code.addressAt index = address ∧
    ∀ later, index < later → later ≤ code.instructions.length + 1 →
      code.addressAt later ≠ address

/-- Entering successive indices at their addresses leaves, at each address, the last one. -/
theorem getElem?_foldl_insert (position : Nat → Address) (count : Nat) (address : Address)
    (index : Nat) :
    ((List.range' 1 count).foldl (fun map index => map.insert (position index) index)
        (∅ : Std.TreeMap Address Nat))[address]? = some index ↔
      1 ≤ index ∧ index ≤ count ∧ position index = address ∧
        ∀ later, index < later → later ≤ count → position later ≠ address := by
  induction count with
  | zero =>
    simp
    omega
  | succ count induction =>
    -- the last index hides the earlier ones at its address, and only those
    rw [List.range'_concat, List.foldl_append, List.foldl_cons, List.foldl_nil,
      Std.TreeMap.getElem?_insert]
    simp only [Nat.one_mul, Nat.add_comm 1 count, Std.compare_eq_iff_eq]
    split
    next here =>
      constructor
      · intro found
        cases found
        exact ⟨by omega, Nat.le_refl _, here, fun later _ _ => by omega⟩
      · rintro ⟨-, le, -, absent⟩
        by_contra distinct
        exact absent (count + 1) (by simp at distinct; omega) (Nat.le_refl _) here
    next elsewhere =>
      rw [induction]
      constructor
      · rintro ⟨positive, le, index_eq, absent⟩
        refine ⟨positive, by omega, index_eq, fun later lt later_le => ?_⟩
        by_cases last : later = count + 1
        · exact last ▸ elsewhere
        · exact absent later lt (by omega)
      · rintro ⟨positive, le, index_eq, absent⟩
        have inside : index ≠ count + 1 := fun last => elsewhere (last ▸ index_eq)
        exact ⟨positive, by omega, index_eq, fun later lt later_le =>
          absent later lt (by omega)⟩

theorem Instr.indices_notMem_parts (instr : Instr) : .indices ∉ instr.parts := by
  cases instr <;> simp [parts]

namespace MethodContext

variable {cx : MethodContext} {here : LocatedInstr}

/-- A run through instructions enters each of them at its address. -/
theorem Decodes.indices {instrs : List LocatedInstr} {state final : MethodState}
    {events : List Event} (run : cx.Decodes instrs state events final) :
    final.addresses.indices =
      (instrs.map fun here => (here.address, here.index)).foldl
        (fun map mark => map.insert mark.1 mark.2) state.addresses.indices := by
  induction run with
  | nil => rfl
  | @cons here rest state final events action planned later induction =>
    have kept := planned.footprint.frame (state.reach here.address here.index) .indices
      here.instr.indices_notMem_parts
    rw [induction, List.map_cons, List.foldl_cons]
    exact congrArg (List.foldl _ · _) kept

/-- The map of a whole body holds the largest index located at each address. -/
theorem Decodes.indexOf?_closedMap {code : CodeItem} {events : List Event} {final : MethodState}
    (run : cx.Decodes code.located cx.entryState events final) (address : Address) (index : Nat) :
    (closedMap code final).indexOf? address = some index ↔ code.IsLastAt address index := by
  have entry_eq : cx.entryState.addresses.indices = ∅ := cx.entryState_same .indices (by simp)
  have marks : (closedMap code final).indices =
      (List.range' 1 (code.instructions.length + 1)).foldl
        (fun map index => map.insert (code.addressAt index) index) ∅ := by
    rw [List.range'_concat, List.foldl_append]
    unfold closedMap AddressMap.insert
    rw [run.indices, entry_eq, code.located_marks, List.foldl_map]
    simp [← code.addressAt_end, Nat.add_comm 1]
  unfold AddressMap.indexOf?
  rw [marks]
  exact getElem?_foldl_insert code.addressAt _ address index

end MethodContext

/-! ## Rows written at the end -/

/-- The relations of all other rows. -/
def earlyRelations : List Relation :=
  Relation.all.filter fun relation => relation ∉ lateRelations

theorem mem_earlyRelations {relation : Relation} :
    relation ∈ earlyRelations ↔ relation ∉ lateRelations := by
  simp [earlyRelations, Relation.mem_all]

theorem Instr.relations_subset_early (instr : Instr) : instr.relations ⊆ earlyRelations := by
  intro relation member
  rw [mem_earlyRelations]
  intro late
  simp only [lateRelations, edgeRelations, List.mem_cons, List.not_mem_nil, or_false] at late
  rcases late with rfl | rfl | rfl | rfl | rfl <;>
    cases instr <;>
    simp [relations, MethodContext.callRelations, MethodContext.resultRelations] at member

namespace MethodContext.Phases

variable {cx : MethodContext} {code : CodeItem} {events : List Event}

theorem before_within (phases : cx.Phases code events) :
    Within earlyRelations (phases.early ++ phases.decoded ++
      (cx.waitingEvents phases.final ++ cx.handlerEvents code phases.final)) := by
  have early_within := phases.early_within.mono (show headerRelations ⊆ earlyRelations by decide)
  have decoded_within : Within earlyRelations phases.decoded :=
    phases.run.within fun here _ => here.instr.relations_subset_early
  have waiting_within := (cx.within_waitingEvents phases.final).mono
    (List.nil_subset earlyRelations)
  have handled_within := (cx.within_handlerEvents code phases.final).mono
    (show handlerRelations ⊆ earlyRelations by decide)
  exact (early_within.append decoded_within).append (waiting_within.append handled_within)

theorem rowsOf_late (phases : cx.Phases code events) {relation : Relation}
    (late : relation ∈ lateRelations) :
    rowsOf relation events = rowsOf relation
      (((closedMap code phases.final).write cx.id : Emit Unit Unit).run ()).events := by
  have not_early : relation ∉ earlyRelations := fun early => mem_earlyRelations.1 early late
  refine (congrArg (rowsOf relation) phases.events_eq).trans ?_
  rw [rowsOf_append, rowsOf_append, phases.summary_within.rowsOf_eq_nil List.not_mem_nil,
    phases.before_within.rowsOf_eq_nil not_early, List.nil_append, List.append_nil]

/-- The rows of other relations than those of headers are written by the instructions, and with the
exception handlers. -/
theorem rowsOf_early (phases : cx.Phases code events) {relation : Relation}
    (not_header : relation ∉ headerRelations) (not_late : relation ∉ lateRelations) :
    rowsOf relation events =
      rowsOf relation phases.decoded ++ rowsOf relation (cx.handlerEvents code phases.final) := by
  have wellFormed : ∀ edge ∈ (closedMap code phases.final).edges.toList, edge.WellFormed :=
    phases.run.queues_entry.wellFormed
  have written_nil : rowsOf relation
      (((closedMap code phases.final).write cx.id : Emit Unit Unit).run ()).events = [] := by
    refine rowsOf_eq_nil _ fun fact member relation_eq => not_late ?_
    rw [← relation_eq]
    exact AddressMap.relation_mem_of_write wellFormed member
  refine (congrArg (rowsOf relation) phases.events_eq).trans ?_
  simp only [rowsOf_append, phases.early_within.rowsOf_eq_nil not_header,
    (cx.within_waitingEvents phases.final).rowsOf_eq_nil List.not_mem_nil, written_nil,
    phases.summary_within.rowsOf_eq_nil List.not_mem_nil, List.nil_append, List.append_nil]

theorem rowsOf_decoded_eq_nil (phases : cx.Phases code events) {relation : Relation}
    (belongs : relation ∈ endRelations) : rowsOf relation phases.decoded = [] := by
  refine rowsOf_eq_nil _ fun fact member relation_eq => ?_
  have before := phases.run.relation_of_mem (fun here _ => here.instr.notMem_endRelations) member
  exact before (relation_eq ▸ belongs)

end MethodContext.Phases

/-- A successful extraction of a method with a body emits the address map, with its edges, near the
end. -/
theorem MethodDef.extract_addresses {container : Container} {definition : MethodDef}
    {code : CodeItem} {cache : SignatureCache} {extracted : ExtractedMethod}
    (code_eq : definition.code = some code)
    (value_eq : ((definition.extract container).run.perform cache).value = .ok extracted) :
    ∃ (cx : MethodContext) (decoded early summary : List Event) (final : MethodState),
      cx.id = extracted.id ∧ cx.Decodes code.located cx.entryState decoded final ∧
      ((definition.extract container).run.perform cache).events = early ++
        (((MethodContext.closedMap code final).write cx.id : Emit Unit Unit).run ()).events ++
          summary ∧
      Within earlyRelations early ∧ Within [] summary := by
  obtain ⟨cx, phases, id_eq, -⟩ := definition.exists_phases code_eq value_eq
  exact ⟨cx, phases.decoded, _, phases.summary, phases.final, id_eq, phases.run, phases.events_eq,
    phases.before_within, phases.summary_within⟩

namespace AddressMap

variable (map : AddressMap) (method : String)

theorem rowsOf_edgeEvents (relation : Relation) (edges : List Edge) :
    rowsOf relation (edges.map (map.edgeEvent method)) = edges.filterMap fun edge =>
      if edge.relation = relation then (map.targetOf? edge).map (edgeRow method edge)
      else none := by
  induction edges with
  | nil => rfl
  | cons edge rest induction =>
    rw [List.map_cons, ← List.singleton_append, rowsOf_append, induction, List.filterMap_cons]
    unfold edgeEvent
    cases target_eq : map.targetOf? edge with
    | none => simp [rowsOf]
    | some target =>
      by_cases same : edge.relation = relation
      · simp [rowsOf, same]
      · simp [rowsOf, same]

theorem rowsOf_indexFacts (entries : List (Address × Nat)) :
    rowsOf .dexInstructionAddressMap
        (entries.map fun entry => .fact (indexFact method entry.1 entry.2)) =
      entries.map fun entry => [method, toString entry.2, toString entry.1] := by
  induction entries with
  | nil => rfl
  | cons entry rest induction =>
    rw [List.map_cons, List.map_cons, ← induction]
    rfl

theorem rowsOf_write_indices (wellFormed : ∀ edge ∈ map.edges.toList, edge.WellFormed) :
    rowsOf .dexInstructionAddressMap ((map.write method : Emit Unit Unit).run ()).events =
      map.indices.toList.map fun entry => [method, toString entry.2, toString entry.1] := by
  have edges_nil : rowsOf .dexInstructionAddressMap
      (map.edges.toList.map (map.edgeEvent method)) = [] := by
    rw [rowsOf_edgeEvents, List.filterMap_eq_nil_iff]
    intro edge member
    have known := (wellFormed edge member).relation_mem
    rw [if_neg]
    intro relation_eq
    simp [relation_eq, edgeRelations] at known
  rw [run_write, rowsOf_append, edges_nil, List.append_nil, rowsOf_indexFacts]

theorem rowsOf_write_edges {relation : Relation} (distinct : relation ≠ .dexInstructionAddressMap) :
    rowsOf relation ((map.write method : Emit Unit Unit).run ()).events =
      map.edges.toList.filterMap fun edge =>
        if edge.relation = relation then (map.targetOf? edge).map (edgeRow method edge)
        else none := by
  rw [run_write, rowsOf_append, rowsOf_edgeEvents, rowsOf_eq_nil, List.nil_append]
  intro fact member relation_eq
  obtain ⟨entry, -, fact_eq⟩ := List.mem_map.1 member
  cases fact_eq
  exact distinct relation_eq.symm

end AddressMap

namespace CodeItem

variable (code : CodeItem)

theorem IsLastAt.index_lt {code : CodeItem} (fits : code.Fits) {first second : Address × Nat}
    (first_last : code.IsLastAt first.1 first.2) (second_last : code.IsLastAt second.1 second.2)
    (address_lt : first.1 < second.1) : first.2 < second.2 := by
  obtain ⟨-, -, first_eq, -⟩ := first_last
  obtain ⟨-, -, second_eq, -⟩ := second_last
  rw [← first_eq, ← second_eq] at address_lt
  by_contra le
  exact UInt64.not_lt.2 (fits.addressAt_mono (Nat.le_of_not_lt le)) address_lt

/-- The largest index at an address is one. -/
theorem IsLastAt.unique {code : CodeItem} {address : Address} {first second : Nat}
    (first_last : code.IsLastAt address first) (second_last : code.IsLastAt address second) :
    first = second := by
  obtain ⟨-, first_le, first_eq, first_absent⟩ := first_last
  obtain ⟨-, second_le, second_eq, second_absent⟩ := second_last
  by_contra distinct
  rcases Nat.lt_or_gt_of_ne distinct with lt | gt
  · exact first_absent second lt second_le second_eq
  · exact second_absent first gt first_le first_eq

theorem exists_isLastAt {index : Nat} (positive : 1 ≤ index)
    (le : index ≤ code.instructions.length + 1) :
    ∃ last, code.IsLastAt (code.addressAt index) last := by
  let located (other : Nat) : Prop := 1 ≤ other ∧ code.addressAt other = code.addressAt index
  have last_spec : located (Nat.findGreatest located (code.instructions.length + 1)) :=
    Nat.findGreatest_spec le ⟨positive, rfl⟩
  refine ⟨_, last_spec.1, Nat.findGreatest_le _, last_spec.2, fun later lt later_le same => ?_⟩
  exact Nat.findGreatest_is_greatest lt later_le ⟨by omega, same⟩

theorem isLastAt_end : code.IsLastAt code.endAddress (code.instructions.length + 1) :=
  ⟨by omega, Nat.le_refl _, code.addressAt_end, fun later lt le => by omega⟩

/-- Where every instruction takes room, every index is the only one at its address. -/
theorem isLastAt_of_sizes {code : CodeItem} (narrow : totalSize code.instructions < 2 ^ 64)
    (sizes : ∀ instr ∈ code.instructions, instr.size ≠ 0) {index : Nat} (positive : 1 ≤ index)
    (le : index ≤ code.instructions.length + 1) :
    code.IsLastAt (code.addressAt index) index := by
  refine ⟨positive, le, rfl, fun later lt later_le same => ?_⟩
  obtain ⟨count, rfl⟩ : ∃ count, index = count + 1 := ⟨index - 1, by omega⟩
  obtain ⟨next, rfl⟩ : ∃ next, later = next + 1 := ⟨later - 1, by omega⟩
  have inside : count < code.instructions.length := by omega
  exact addressAt_ne narrow (List.getElem?_eq_getElem inside) (sizes _ (List.getElem_mem inside))
    (by omega) same.symm

theorem sizes_of_isLastAt
    (lasts : ∀ index, 1 ≤ index → index ≤ code.instructions.length + 1 →
      ∃ address, code.IsLastAt address index) :
    ∀ instr ∈ code.instructions, instr.size ≠ 0 := by
  intro instr member size_eq
  obtain ⟨count, inside, rfl⟩ := List.getElem_of_mem member
  obtain ⟨address, -, -, address_eq, absent⟩ := lasts (count + 1) (by omega) (by omega)
  have next_eq := code.addressAt_succ (show 1 ≤ count + 1 by omega) inside
  refine absent (count + 2) (by omega) (by omega) ?_
  rw [← address_eq, next_eq, show code.instructions[count + 1 - 1].size = 0 from size_eq,
    Address.advance_zero]

end CodeItem

/-- Distinct numbers from 1 to a bound are all of them when there are enough. -/
theorem length_eq_iff_complete {indices : List Nat} {bound : Nat} (nodup : indices.Nodup)
    (inside : ∀ index ∈ indices, 1 ≤ index ∧ index ≤ bound) :
    indices.length = bound ↔ ∀ index, 1 ≤ index → index ≤ bound → index ∈ indices := by
  constructor
  · intro length_eq
    have subset : indices ⊆ List.range' 1 bound := by
      intro index member
      have := inside index member
      rw [List.mem_range'_1]
      omega
    have perm : indices.Perm (List.range' 1 bound) :=
      (List.subperm_of_subset nodup subset).perm_of_length_le (by simp [length_eq])
    intro index positive le
    rw [perm.mem_iff, List.mem_range'_1]
    omega
  · intro complete
    have perm : indices.Perm (List.range' 1 bound) := by
      refine (List.perm_ext_iff_of_nodup nodup List.nodup_range').2 fun index => ?_
      rw [List.mem_range'_1]
      constructor
      · intro member
        have := inside index member
        omega
      · rintro ⟨positive, lt⟩
        exact complete index positive (by omega)
    rw [perm.length_eq, List.length_range']

namespace CodeItem

variable {code : CodeItem}

/-- The entries of an address map in the order of the addresses. -/
structure Entries (code : CodeItem) (entries : List (Address × Nat)) : Prop where
  ascending : entries.Pairwise fun first second => first.1 < second.1
  mem_iff : ∀ address index, (address, index) ∈ entries ↔ code.IsLastAt address index

namespace Entries

variable {entries : List (Address × Nat)} (map : code.Entries entries)

include map

theorem mem_indices {index : Nat} :
    index ∈ entries.map Prod.snd ↔ ∃ address, code.IsLastAt address index := by
  simp only [List.mem_map, Prod.exists, exists_eq_right, map.mem_iff]

theorem nodup_indices : (entries.map Prod.snd).Nodup := by
  refine List.pairwise_map.2 (List.Pairwise.imp_of_mem ?_ map.ascending)
  rintro ⟨first, index⟩ ⟨second, other⟩ first_mem second_mem address_lt rfl
  obtain ⟨-, -, first_eq, -⟩ := (map.mem_iff _ _).1 first_mem
  obtain ⟨-, -, second_eq, -⟩ := (map.mem_iff _ _).1 second_mem
  exact UInt64.ne_of_lt address_lt (first_eq.symm.trans second_eq)

/-- The indices increase with the addresses exactly where these do not wrap around. -/
theorem indices_ascending_iff (narrow : totalSize code.instructions < 2 ^ 64) :
    (entries.Pairwise fun first second => first.2 < second.2) ↔ code.Fits := by
  constructor
  · intro increasing
    by_contra wraps
    -- the end, with the largest index of all, has come round before the start
    have wrapped : code.endAddress < code.startAddress := by
      have end_eq := Address.toNat_advance code.startAddress (totalSize code.instructions)
      have start_lt := code.startAddress.toNat_lt
      rw [UInt64.lt_iff_toNat_lt]
      unfold endAddress
      unfold Fits at wraps
      omega
    let in_order (first second : Address × Nat) : Prop :=
      first.1 < second.1 → first.2 < second.2
    have ahead : entries.Pairwise in_order := by
      refine increasing.imp ?_
      exact fun lt _ => lt
    have back : entries.Pairwise (flip in_order) := by
      refine map.ascending.imp ?_
      exact fun lt gt => absurd gt (UInt64.lt_asymm lt)
    have every : ∀ ⦃first⦄, first ∈ entries → ∀ ⦃second⦄, second ∈ entries →
        in_order first second :=
      List.Pairwise.forall_of_forall_of_flip (fun _ _ lt => absurd lt (UInt64.lt_irrefl _))
        ahead back
    obtain ⟨last, start_last⟩ := code.exists_isLastAt (Nat.le_refl 1) (by omega)
    have start_mem := (map.mem_iff _ _).2 start_last
    have end_mem := (map.mem_iff _ _).2 code.isLastAt_end
    have start_eq : code.addressAt 1 = code.startAddress := by simp [addressAt, totalSize]
    rw [start_eq] at start_mem
    have beyond : code.instructions.length + 1 < last := every end_mem start_mem wrapped
    have le := start_last.2.1
    omega
  · intro fits
    refine List.Pairwise.imp_of_mem ?_ map.ascending
    intro first second first_mem second_mem address_lt
    exact IsLastAt.index_lt fits ((map.mem_iff _ _).1 first_mem) ((map.mem_iff _ _).1 second_mem)
      address_lt

theorem complete_iff (narrow : totalSize code.instructions < 2 ^ 64) :
    (∀ index, 1 ≤ index → index ≤ code.instructions.length + 1 → index ∈ entries.map Prod.snd) ↔
      ∀ instr ∈ code.instructions, instr.size ≠ 0 := by
  simp only [map.mem_indices]
  exact ⟨code.sizes_of_isLastAt,
    fun sizes index positive le => ⟨_, isLastAt_of_sizes narrow sizes positive le⟩⟩

theorem length_iff (narrow : totalSize code.instructions < 2 ^ 64) :
    entries.length = code.instructions.length + 1 ↔
      ∀ instr ∈ code.instructions, instr.size ≠ 0 := by
  rw [← map.complete_iff narrow, ← List.length_map Prod.snd]
  refine length_eq_iff_complete map.nodup_indices fun index member => ?_
  obtain ⟨address, positive, le, -⟩ := map.mem_indices.1 member
  exact ⟨positive, le⟩

theorem indices_eq_iff (narrow : totalSize code.instructions < 2 ^ 64) :
    entries.map Prod.snd = List.range' 1 (code.instructions.length + 1) ↔
      code.Fits ∧ ∀ instr ∈ code.instructions, instr.size ≠ 0 := by
  rw [← map.indices_ascending_iff narrow, ← map.complete_iff narrow, ← List.pairwise_map]
  constructor
  · intro indices_eq
    rw [indices_eq]
    refine ⟨List.pairwise_lt_range', fun index positive le => ?_⟩
    rw [List.mem_range'_1]
    omega
  · rintro ⟨increasing, complete⟩
    refine increasing.eq_of_mem_iff List.pairwise_lt_range' fun index => ?_
    rw [List.mem_range'_1]
    constructor
    · intro member
      obtain ⟨address, positive, le, -⟩ := map.mem_indices.1 member
      omega
    · rintro ⟨positive, lt⟩
      exact complete index positive (by omega)

omit map in
theorem unique {others : List (Address × Nat)} (first : code.Entries entries)
    (second : code.Entries others) : entries = others := by
  have distinct {list : List (Address × Nat)} (some_map : code.Entries list) : list.Nodup :=
    some_map.ascending.imp fun {_ _} lt same => UInt64.ne_of_lt lt (congrArg Prod.fst same)
  have perm : entries.Perm others :=
    (List.perm_ext_iff_of_nodup (distinct first) (distinct second)).2 fun entry =>
      (first.mem_iff entry.1 entry.2).trans (second.mem_iff entry.1 entry.2).symm
  exact perm.eq_of_pairwise (fun _ _ _ _ lt gt => absurd gt (UInt64.lt_asymm lt))
    first.ascending second.ascending

end Entries

end CodeItem

/-- A successful extraction writes the entries of the address map. -/
theorem MethodDef.exists_entries {container : Container} {definition : MethodDef} {code : CodeItem}
    {cache : SignatureCache} {extracted : ExtractedMethod} (code_eq : definition.code = some code)
    (value_eq : ((definition.extract container).run cache).value = .ok extracted) :
    ∃ entries, code.Entries entries ∧
      rowsOf .dexInstructionAddressMap ((definition.extract container).run cache).events =
        entries.map fun entry => [extracted.id, toString entry.2, toString entry.1] := by
  obtain ⟨cx, decoded, early, summary, final, id_eq, run, events_eq, early_within, quiet⟩ :=
    definition.extract_addresses code_eq value_eq
  refine ⟨(MethodContext.closedMap code final).indices.toList, ⟨?_, fun address index => ?_⟩, ?_⟩
  · exact Std.TreeMap.ordered_keys_toList.imp Std.compare_eq_lt.1
  · rw [Std.TreeMap.mem_toList_iff_getElem?_eq_some]
    exact run.indexOf?_closedMap address index
  · have late : Relation.dexInstructionAddressMap ∉ earlyRelations := by decide
    change rowsOf _ ((definition.extract container).run.perform cache).events = _
    rw [events_eq, rowsOf_append, rowsOf_append, early_within.rowsOf_eq_nil late,
      quiet.rowsOf_eq_nil List.not_mem_nil, List.nil_append, List.append_nil,
      (MethodContext.closedMap code final).rowsOf_write_indices _ run.queues_entry.wellFormed,
      id_eq]

/-- The rows of the address map: one for each address of an instruction or of the end, with the
largest index located there, in increasing order of addresses.  In a body of fewer code units than
there are addresses, there are rows of all indices exactly when every instruction takes room, and
the indices increase exactly when no address wraps around. -/
theorem addressMap_rows {container : Container} {definition : MethodDef} {code : CodeItem}
    {cache : SignatureCache} {extracted : ExtractedMethod} (code_eq : definition.code = some code)
    (value_eq : ((definition.extract container).run cache).value = .ok extracted) :
    ∃ entries : List (Address × Nat),
      rowsOf .dexInstructionAddressMap ((definition.extract container).run cache).events =
        (entries.map fun entry => [extracted.id, toString entry.2, toString entry.1]) ∧
      entries.Pairwise (fun first second => first.1 < second.1) ∧
      (∀ address index, (address, index) ∈ entries ↔ code.IsLastAt address index) ∧
      (totalSize code.instructions < 2 ^ 64 →
        (entries.Pairwise (fun first second => first.2 < second.2) ↔ code.Fits) ∧
        (entries.length = code.instructions.length + 1 ↔
          ∀ instr ∈ code.instructions, instr.size ≠ 0) ∧
        (entries.map Prod.snd = List.range' 1 (code.instructions.length + 1) ↔
          code.Fits ∧ ∀ instr ∈ code.instructions, instr.size ≠ 0)) := by
  obtain ⟨entries, map, rows_eq⟩ := definition.exists_entries code_eq value_eq
  exact ⟨entries, rows_eq, map.ascending, map.mem_iff, fun narrow =>
    ⟨map.indices_ascending_iff narrow, map.length_iff narrow, map.indices_eq_iff narrow⟩⟩

/-- A body with an instruction that takes no room, a branch over it and one before the entry. -/
def detour : List Instr :=
  [.goto .eight 3, .optimized 0 0, .branchZero .eq ⟨0⟩ (-9), .returnVoid]

theorem exists_extract_detour :
    ∃ extracted,
      (((loneMethod detour).extract loneContainer).run .empty).value = .ok extracted :=
  MethodDef.exists_extract_sound rfl rfl (by decide)

/-- Instructions that take no room have no row. -/
theorem addressMap_rows_detour :
    ∃ (extracted : ExtractedMethod) (entries : List (Address × Nat)),
      rowsOf .dexInstructionAddressMap
          (((loneMethod detour).extract loneContainer).run .empty).events =
        (entries.map fun entry => [extracted.id, toString entry.2, toString entry.1]) ∧
      entries.length ≠ 5 := by
  obtain ⟨extracted, value_eq⟩ := exists_extract_detour
  obtain ⟨entries, rows_eq, -, -, sizes⟩ := addressMap_rows rfl value_eq
  obtain ⟨-, length_iff, -⟩ := sizes (by decide)
  refine ⟨extracted, entries, rows_eq, fun length_eq => ?_⟩
  exact length_iff.1 length_eq (.optimized 0 0) (by simp [detour]) rfl

/-- A body that a prologue end marker moves so far that its second instruction wraps around. -/
def overrun : CodeItem where
  registers := 1
  instructions := [.nop, .nop]
  tries := []
  debugItems := [.prologueEnd 0xffffffffffffffff]

theorem exists_extract_overrun :
    ∃ extracted, (({ loneMethod [] with code := some overrun }.extract loneContainer).run
      .empty).value = .ok extracted :=
  MethodDef.exists_extract_sound rfl rfl (by decide)

theorem entries_overrun : overrun.Entries [(0, 2), (1, 3), (0xffffffffffffffff, 1)] := by
  refine ⟨by decide, fun address index => ?_⟩
  simp only [List.mem_cons, List.not_mem_nil, or_false, Prod.mk.injEq]
  constructor
  · rintro (⟨rfl, rfl⟩ | ⟨rfl, rfl⟩ | ⟨rfl, rfl⟩)
    all_goals
      refine ⟨by decide, by decide, by decide, fun later behind le => ?_⟩
      change later ≤ 3 at le
      interval_cases later <;> decide
  · rintro ⟨positive, le, rfl, -⟩
    change index ≤ 3 at le
    interval_cases index <;> decide

/-- The instructions that have wrapped around have the first rows, with the larger indices. -/
theorem addressMap_wraps_overrun :
    ∃ extracted,
      let outcome :=
        ({ loneMethod [] with code := some overrun }.extract loneContainer).run .empty
      outcome.value = .ok extracted ∧
        rowsOf .dexInstructionAddressMap outcome.events =
          [[extracted.id, "2", "0"], [extracted.id, "3", "1"],
            [extracted.id, "1", "18446744073709551615"]] := by
  obtain ⟨extracted, value_eq⟩ := exists_extract_overrun
  obtain ⟨entries, map, rows_eq⟩ := MethodDef.exists_entries rfl value_eq
  rw [map.unique entries_overrun] at rows_eq
  exact ⟨extracted, value_eq, rows_eq⟩

end DalvikFacts
