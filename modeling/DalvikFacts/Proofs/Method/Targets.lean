import DalvikFacts.Proofs.Method.Handlers
import DalvikFacts.Proofs.Method.Switches

/-!
# Targets of control flow

Where the rows of branches, of the cases of switches and of exception handlers send control: to the
index that the address map has at the computed address.  This is the index of an instruction unless
the address is that of the end, which the address map knows as well.
-/

namespace DalvikFacts

namespace CodeItem

variable {code : CodeItem} {address : Address} {target : Nat}

/-- Control that is sent to an address arrives at an index: the largest one located there.  It is
that of an instruction unless the address is that of the end. -/
structure ArrivesAt (code : CodeItem) (address : Address) (target : Nat) : Prop where
  last : code.IsLastAt address target
  inside_iff : target ≤ code.instructions.length ↔ address ≠ code.endAddress

theorem IsLastAt.arrives (last : code.IsLastAt address target) : code.ArrivesAt address target := by
  have ⟨positive, le, address_eq, absent⟩ := last
  refine ⟨last, ⟨fun inside at_end => ?_, fun before_end => ?_⟩⟩
  · have behind : target < code.instructions.length + 1 := by omega
    exact absent _ behind (Nat.le_refl _) (code.addressAt_end.trans at_end.symm)
  · have distinct : target ≠ code.instructions.length + 1 := by
      rintro rfl
      exact before_end (address_eq.symm.trans code.addressAt_end)
    omega

end CodeItem

namespace MethodContext.Phases

variable {cx : MethodContext} {code : CodeItem} {events : List Event}

theorem lookup_closedMap (phases : cx.Phases code events) {address : Address} {target : Nat} :
    (closedMap code phases.final).indices.toList.lookup address = some target ↔
      code.IsLastAt address target := by
  rw [AddressMap.lookup_toList]
  exact phases.run.indexOf?_closedMap address target

theorem rowsOf_branches (phases : cx.Phases code events) {relation : Relation}
    (of_branches : relation = .goto ∨ relation = .branch) :
    rowsOf relation events = code.located.filterMap
      (·.branchRow? cx.id (closedMap code phases.final).indices.toList relation) := by
  have queues : cx.Queues code.located (closedMap code phases.final).edges.toList :=
    phases.run.queues_entry
  rw [phases.rowsOf_late (by rcases of_branches with rfl | rfl <;> decide)]
  exact AddressMap.rowsOf_branches _ queues of_branches

/-- The row of a branch sends control to where its offset leads. -/
theorem arrives_of_mem_branches (phases : cx.Phases code events) {relation : Relation}
    (of_branches : relation = .goto ∨ relation = .branch) {row : List String}
    (member : row ∈ rowsOf relation events) :
    ∃ here ∈ code.located, ∃ branch, here.instr.branch? = some branch ∧
      branch.relation = relation ∧ ∃ address target,
        Address.offset? here.address branch.offset = some address ∧
        code.ArrivesAt address target ∧
        row = [Identifier.instruction cx.id branch.kind here.index, toString here.index,
          toString target, cx.id] := by
  rw [phases.rowsOf_branches of_branches] at member
  obtain ⟨here, here_mem, row_eq⟩ := List.mem_filterMap.1 member
  obtain ⟨branch, branch_eq, row_eq⟩ := Option.bind_eq_some_iff.1 row_eq
  split at row_eq
  next relation_eq =>
    obtain ⟨target, target_eq, rfl⟩ := Option.map_eq_some_iff.1 row_eq
    obtain ⟨address, address_eq, known⟩ := Option.bind_eq_some_iff.1 target_eq
    have last := phases.lookup_closedMap.1 known
    exact ⟨here, here_mem, branch, branch_eq, relation_eq, address, target, address_eq,
      last.arrives, rfl⟩
  next => cases row_eq

theorem arrives_of_mem_cases (phases : cx.Phases code events) {layout : SwitchKind}
    {row : List String} (member : row ∈ rowsOf (caseRelation layout) events) :
    ∃ here ∈ code.located, ∃ table, code.casesOf? here = some table ∧ table.kind = layout ∧
      ∃ key offset address target, (key, offset) ∈ table.cases ∧
        Address.offset? here.address offset = some address ∧ code.ArrivesAt address target ∧
        row =
          [Identifier.instruction cx.id "switch" here.index, toString key, toString target] := by
  rw [phases.rowsOf_cases] at member
  obtain ⟨⟨table, use⟩, given_mem, row_mem⟩ := List.mem_flatMap.1 member
  obtain ⟨here, here_mem, cases_eq, rfl⟩ := CodeItem.exists_switch_of_mem_handOut given_mem
  split at row_mem
  next layout_eq =>
    obtain ⟨⟨key, offset⟩, case_mem, row_eq⟩ := List.mem_filterMap.1 row_mem
    obtain ⟨target, target_eq, rfl⟩ := Option.map_eq_some_iff.1 row_eq
    obtain ⟨address, address_eq, known⟩ := Option.bind_eq_some_iff.1 target_eq
    have last := phases.lookup_closedMap.1 known
    exact ⟨here, here_mem, table, cases_eq, layout_eq, key, offset, address, target, case_mem,
      address_eq, last.arrives, rfl⟩
  next => cases row_mem

/-- The row of a handler sends control to its address. -/
theorem arrives_of_mem_handlers (phases : cx.Phases code events) {row : List String}
    (member : row ∈ rowsOf .exceptionHandler events) :
    ∃ block ∈ code.tries, ∃ handler ∈ block.handlers, ∃ target start stop : Nat,
      code.ArrivesAt handler.address target ∧ code.IsLastAt block.start start ∧
      code.IsLastAt block.stop stop ∧
      row = [Identifier.instruction cx.id (Identifier.handlerKind handler.caughtName) target, cx.id,
        toString target, handler.caughtName, toString start, toString stop] := by
  rw [phases.rowsOf_handlers] at member
  obtain ⟨block, block_mem, row_mem⟩ := List.mem_flatMap.1 member
  obtain ⟨handler, handler_mem, row_eq⟩ := List.mem_filterMap.1 row_mem
  have listed : handler ∈ block.handlers := List.mem_mergeSort.1 handler_mem
  obtain ⟨found, region_eq, rfl⟩ := Option.map_eq_some_iff.1 row_eq
  obtain ⟨target, target_eq, region_eq⟩ := Option.bind_eq_some_iff.1 region_eq
  obtain ⟨start, start_eq, region_eq⟩ := Option.bind_eq_some_iff.1 region_eq
  obtain ⟨stop, stop_eq, region_eq⟩ := Option.bind_eq_some_iff.1 region_eq
  cases region_eq
  have located : ∀ address index,
      (closedMap code phases.final).indexOf? address = some index → code.IsLastAt address index :=
    fun address index => (phases.run.indexOf?_closedMap address index).1
  exact ⟨block, block_mem, handler, listed, target, start, stop, (located _ _ target_eq).arrives,
    located _ _ start_eq, located _ _ stop_eq, rfl⟩

end MethodContext.Phases

/-- Every row of a branch, of a case of a switch or of an exception handler sends control to the
index located at the address that it leads to: that of an instruction, or the one behind the last
instruction when the address is that of the end. -/
theorem control_targets {container : Container} {definition : MethodDef} {code : CodeItem}
    {cache : SignatureCache} {extracted : ExtractedMethod} (code_eq : definition.code = some code)
    (value_eq : ((definition.extract container).run cache).value = .ok extracted) :
    let events := ((definition.extract container).run cache).events
    (∀ relation, relation = .goto ∨ relation = .branch → ∀ row ∈ rowsOf relation events,
      ∃ here ∈ code.located, ∃ branch, here.instr.branch? = some branch ∧
        branch.relation = relation ∧ ∃ address target,
          Address.offset? here.address branch.offset = some address ∧
          code.ArrivesAt address target ∧
          row = [Identifier.instruction extracted.id branch.kind here.index, toString here.index,
            toString target, extracted.id]) ∧
    (∀ layout, ∀ row ∈ rowsOf (MethodContext.caseRelation layout) events,
      ∃ here ∈ code.located, ∃ table, code.casesOf? here = some table ∧ table.kind = layout ∧
        ∃ key offset address target, (key, offset) ∈ table.cases ∧
          Address.offset? here.address offset = some address ∧ code.ArrivesAt address target ∧
          row = [Identifier.instruction extracted.id "switch" here.index, toString key,
            toString target]) ∧
    ∀ row ∈ rowsOf .exceptionHandler events,
      ∃ block ∈ code.tries, ∃ handler ∈ block.handlers, ∃ target start stop : Nat,
        code.ArrivesAt handler.address target ∧ code.IsLastAt block.start start ∧
        code.IsLastAt block.stop stop ∧
        row = [Identifier.instruction extracted.id (Identifier.handlerKind handler.caughtName)
          target, extracted.id, toString target, handler.caughtName, toString start,
          toString stop] := by
  obtain ⟨cx, phases, id_eq, -⟩ := definition.exists_phases code_eq value_eq
  rw [← id_eq]
  refine ⟨fun relation of_branches row member => ?_, fun layout row member => ?_,
    fun row member => ?_⟩
  · exact phases.arrives_of_mem_branches of_branches member
  · exact phases.arrives_of_mem_cases member
  · exact phases.arrives_of_mem_handlers member

/-- A body that runs off its end. -/
def runaway : List Instr :=
  [.goto .eight 1]

theorem exists_extract_runaway :
    ∃ extracted,
      (((loneMethod runaway).extract loneContainer).run .empty).value = .ok extracted :=
  MethodDef.exists_extract_sound rfl rfl (by decide)

/-- A branch to the end has a row, and an index that is not that of any instruction. -/
theorem control_leaves_runaway :
    ∃ extracted : ExtractedMethod,
      (((loneMethod runaway).extract loneContainer).run .empty).value = .ok extracted ∧
        rowsOf .goto (((loneMethod runaway).extract loneContainer).run .empty).events =
          [[Identifier.instruction extracted.id "goto" 1, toString 1, toString 2, extracted.id]] ∧
        runaway.length < 2 := by
  obtain ⟨extracted, value_eq⟩ := exists_extract_runaway
  obtain ⟨cx, phases, id_eq, -⟩ := (loneMethod runaway).exists_phases rfl value_eq
  refine ⟨extracted, value_eq, ?_, by decide⟩
  have last : CodeItem.IsLastAt ⟨1, runaway, [], []⟩ 1 2 := by
    refine ⟨by decide, by decide, rfl, fun later behind le => ?_⟩
    exact absurd le (Nat.not_le.2 behind)
  have known := phases.lookup_closedMap.2 last
  have branch_row : LocatedInstr.branchRow? cx.id
      (MethodContext.closedMap ⟨1, runaway, [], []⟩ phases.final).indices.toList .goto
        ⟨1, 0, .goto .eight 1⟩ =
      some [Identifier.instruction cx.id "goto" 1, toString 1, toString 2, cx.id] := by
    have target_eq : Address.offset? 0 1 = some 1 := rfl
    simp [LocatedInstr.branchRow?, Instr.branch?, LocatedInstr.targetIn?, target_eq, known]
  have located_eq : CodeItem.located ⟨1, runaway, [], []⟩ = [⟨1, 0, .goto .eight 1⟩] := rfl
  rw [← id_eq]
  refine (phases.rowsOf_branches (.inl rfl)).trans ?_
  rw [located_eq, List.filterMap_cons, branch_row]
  rfl

/-- The branch to the end arrives behind the last instruction. -/
theorem control_targets_runaway :
    ∃ extracted : ExtractedMethod,
      ∀ row ∈ rowsOf .goto (((loneMethod runaway).extract loneContainer).run .empty).events,
        ∃ target, CodeItem.ArrivesAt ⟨1, runaway, [], []⟩ 1 target ∧
          row = [Identifier.instruction extracted.id "goto" 1, toString 1, toString target,
            extracted.id] := by
  obtain ⟨extracted, value_eq⟩ := exists_extract_runaway
  have branches := (control_targets rfl value_eq).1 .goto (.inl rfl)
  refine ⟨extracted, fun row member => ?_⟩
  obtain ⟨here, here_mem, branch, branch_eq, -, address, target, address_eq, arrives, row_eq⟩ :=
    branches row member
  have here_eq : here = ⟨1, 0, .goto .eight 1⟩ := List.mem_singleton.1 here_mem
  subst here_eq
  cases branch_eq
  cases address_eq
  exact ⟨target, arrives, row_eq⟩

end DalvikFacts
