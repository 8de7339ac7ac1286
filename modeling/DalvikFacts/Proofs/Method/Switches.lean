import DalvikFacts.Proofs.Method.Branches
import DalvikFacts.Proofs.Method.Payloads
import Mathlib.Tactic.IntervalCases

/-!
# Rows of switches

A switch waits for the payload at its target.  The payload that stands there behind it gives it its
cases, each relative to the address of the switch, and a case has a row if the address map knows its
target.  The switches that no payload behind them serves are counted at the end of the body.
-/

namespace DalvikFacts

open Pending

/-- The cases of switches, as a payload lists them: keys, and targets relative to the switch. -/
structure CaseTable where
  kind : SwitchKind
  cases : List (Int × Int)
  deriving DecidableEq

/-- An instruction read as a payload of switches.  The keys of a packed one are the first key and
the 32 bit numbers behind it. -/
def Instr.caseTable? : Instr → Option CaseTable
  | packedSwitchPayload firstKey targets =>
    some ⟨.packed, targets.zipIdx.map fun (target, position) =>
      ((firstKey + Int.ofNat position).bmod 0x100000000, target)⟩
  | sparseSwitchPayload keys targets => some ⟨.sparse, keys.zip targets⟩
  | _ => none

/-- The rows of the cases of a switch that have known targets. -/
def CaseTable.rows (table : CaseTable) (method : String) (entries : List (Address × Nat))
    (use : SwitchUse) : List (List String) :=
  table.cases.filterMap fun (key, offset) =>
    ((Address.offset? use.address offset).bind fun address => entries.lookup address).map
      fun target =>
        [Identifier.instruction method "switch" use.index, toString key, toString target]

namespace LocatedInstr

/-- The address at which a switch expects its payload. -/
def switchTarget? (here : LocatedInstr) : Option Address :=
  match here.instr with
  | .switch _ _ offset => Address.offset? here.address offset
  | _ => none

/-- A switch as it waits for its payload. -/
def asUse (here : LocatedInstr) : SwitchUse :=
  ⟨here.address, here.index⟩

/-- What an instruction does to the table of waiting switches. -/
def switchOperation? (here : LocatedInstr) : Option (Operation CaseTable SwitchUse) :=
  match here.instr.caseTable? with
  | some table => some (.take here.address table)
  | none => here.switchTarget?.map (.register · here.asUse)

end LocatedInstr

/-- The cases that a switch gets from the payload behind it. -/
def CodeItem.casesOf? (code : CodeItem) (here : LocatedInstr) : Option CaseTable :=
  here.switchTarget?.bind (code.readBehind? Instr.caseTable? here.index)

/-- The switches of a body that no payload behind them serves. -/
def CodeItem.unservedSwitches (code : CodeItem) : List LocatedInstr :=
  code.located.filter fun here => here.switchTarget?.isSome && (code.casesOf? here).isNone

theorem Instr.size_ne_of_caseTable? {instr : Instr} {table : CaseTable}
    (table_eq : instr.caseTable? = some table) : instr.size ≠ 0 := by
  unfold caseTable? at table_eq
  split at table_eq
  · simp [size]
  · simp [size]
  · cases table_eq

theorem packedKeys_zip (firstKey : Int) (targets : List Int) :
    (packedKeys firstKey targets.length).zip targets =
      targets.zipIdx.map fun (target, position) =>
        ((firstKey + Int.ofNat position).bmod 0x100000000, target) := by
  refine List.ext_getElem (by simp [packedKeys]) fun position first second => ?_
  simp [packedKeys]

/-- How switches wait for their payloads. -/
def switchDelivery : Delivery CaseTable SwitchUse where
  operation? := LocatedInstr.switchOperation?
  read := Instr.caseTable?
  index := SwitchUse.index
  takes here address := by
    unfold LocatedInstr.switchOperation?
    cases here.instr.caseTable? with
    | some table => rfl
    | none => cases here.switchTarget? <;> simp [Operation.takerOf?]
  index_eq here entry entry_eq := by
    unfold LocatedInstr.switchOperation? at entry_eq
    cases table_eq : here.instr.caseTable? with
    | some table => simp [table_eq, Operation.registered?] at entry_eq
    | none =>
      simp only [table_eq] at entry_eq
      obtain ⟨operation, operation_eq, entry_eq⟩ := Option.bind_eq_some_iff.1 entry_eq
      obtain ⟨address, -, rfl⟩ := Option.map_eq_some_iff.1 operation_eq
      cases entry_eq
      rfl

namespace MethodState

/-- The queued edges of the cases of switches. -/
def caseEdges (state : MethodState) : List Edge :=
  state.addresses.edges.toList.filter (·.key.isSome)

end MethodState

namespace MethodContext

variable (cx : MethodContext) {here : LocatedInstr}

/-- The edges that a payload queues for one of its switches. -/
def servedEdges (given : CaseTable × SwitchUse) : List Edge :=
  cx.caseEdges given.1.kind given.1.cases given.2

variable {cx}

theorem isSome_key_of_mem_servedEdges (given : CaseTable × SwitchUse) {edge : Edge}
    (member : edge ∈ cx.servedEdges given) : edge.key.isSome := by
  obtain ⟨⟨key, offset⟩, -, rfl⟩ := List.mem_map.1 member
  rfl

/-! ## Steps -/

theorem switches_writeSwitch (kind : SwitchKind) (key : Reg) (offset : Int) (state : MethodState) :
    ((cx.writeSwitch here kind key offset).run state).state.switches =
      match Address.offset? here.address offset with
      | none => state.switches
      | some target => state.switches.register target ⟨here.address, here.index⟩ := by
  have used : Footprint [.declared] [.varDeclaringMethod] (cx.use key) :=
    footprint_use cx (by simp) (by simp) key
  have kept : ((cx.use key).run state).state.switches = state.switches :=
    used.frame state .switches (by simp)
  unfold writeSwitch
  rw [Emit.run_bind, Emit.run_bind]
  cases Address.offset? here.address offset with
  | none => exact kept
  | some target =>
    rw [← kept]
    rfl

theorem switches_writeSwitchPayload (kind : SwitchKind) (cases : List (Int × Int))
    (state : MethodState) :
    ((cx.writeSwitchPayload here kind cases).run state).state.switches =
      state.switches.release here.address := by
  unfold writeSwitchPayload
  rw [Emit.run_bind, Emit.run_bind]
  dsimp only
  split <;> rfl

theorem Planned.eq_of_caseTable? {result : Option PendingResult} {action : MethodEmit Unit}
    {table : CaseTable} (planned : cx.Planned here result action)
    (table_eq : here.instr.caseTable? = some table) :
    action = cx.writeSwitchPayload here table.kind table.cases := by
  unfold Planned at planned
  unfold Instr.caseTable? at table_eq
  split at table_eq
  next instr_eq =>
    cases table_eq
    simp only [instr_eq] at planned
    rw [planned, packedKeys_zip]
  next instr_eq =>
    cases table_eq
    simp only [instr_eq] at planned
    exact planned
  next => cases table_eq

/-- Instructions other than switches and their payloads leave the waiting switches and the queued
cases alone. -/
theorem Planned.switches_same {result : Option PendingResult} {action : MethodEmit Unit}
    (planned : cx.Planned here result action)
    (no_table : here.instr.caseTable? = none)
    (no_switch : ∀ kind key offset, here.instr ≠ .switch kind key offset) (state : MethodState) :
    (action.run state).state.switches = state.switches ∧
      (action.run state).state.caseEdges = state.caseEdges := by
  have switches_kept : .switches ∉ here.instr.parts := by
    generalize here.instr = instr at no_table no_switch ⊢
    cases instr with
    | switch kind key offset => exact absurd rfl (no_switch kind key offset)
    | packedSwitchPayload | sparseSwitchPayload => cases no_table
    | _ => simp [Instr.parts]
  refine ⟨planned.footprint.frame state .switches switches_kept, ?_⟩
  by_cases touched : .edges ∈ here.instr.parts
  · -- only branches are left, and their edges have no key
    have unkeyed : ∀ edge : Edge, edge.key = none →
        (action.run state).state.addresses.edges = state.addresses.edges.push edge →
        (action.run state).state.caseEdges = state.caseEdges := by
      intro edge key_eq pushed
      simp [MethodState.caseEdges, pushed, key_eq]
    unfold Planned at planned
    cases instr_eq : here.instr with
    | goto form offset =>
      simp only [instr_eq] at planned
      subst planned
      exact unkeyed _ rfl (edges_queueBranch _ _ state)
    | branch test left right offset =>
      simp only [instr_eq] at planned
      subst planned
      exact unkeyed _ rfl
        ((edges_writeBranch test left (some right) state).trans (edges_queueBranch _ _ state))
    | branchZero test left offset =>
      simp only [instr_eq] at planned
      subst planned
      exact unkeyed _ rfl
        ((edges_writeBranch test left none state).trans (edges_queueBranch _ _ state))
    | packedSwitchPayload | sparseSwitchPayload => simp [instr_eq, Instr.caseTable?] at no_table
    | _ => simp [instr_eq, Instr.parts] at touched
  · have edges_kept : (action.run state).state.addresses.edges = state.addresses.edges :=
      planned.footprint.frame state .edges touched
    simp [MethodState.caseEdges, edges_kept]

/-- What an instruction does to the waiting switches, and the cases that it queues. -/
theorem Planned.serves {result : Option PendingResult} {action : MethodEmit Unit}
    (planned : cx.Planned here result action) {waiting : List (Address × SwitchUse)}
    {state : MethodState}
    (holds : state.switches.Holds waiting) :
    (action.run state).state.switches.Holds
        (remaining waiting here.switchOperation?.toList) ∧
      (action.run state).state.caseEdges = state.caseEdges ++
        (handOut waiting here.switchOperation?.toList).flatMap cx.servedEdges := by
  unfold LocatedInstr.switchOperation?
  cases table_eq : here.instr.caseTable? with
  | some table =>
    have action_eq := planned.eq_of_caseTable? table_eq
    subst action_eq
    constructor
    · rw [switches_writeSwitchPayload]
      exact holds.release here.address
    · have keyed : ∀ edge ∈ (entriesAt here.address waiting).flatMap
          (cx.caseEdges table.kind table.cases), edge.key.isSome := by
        intro edge member
        obtain ⟨use, -, edge_mem⟩ := List.mem_flatMap.1 member
        exact isSome_key_of_mem_servedEdges (table, use) edge_mem
      rw [MethodState.caseEdges, edges_writeSwitchPayload, holds, List.filter_append,
        List.filter_eq_self.2 keyed]
      simp [MethodState.caseEdges, handOut, List.flatMap_map, servedEdges]
  | none =>
    by_cases is_switch : ∃ kind key offset, here.instr = .switch kind key offset
    · obtain ⟨kind, key, offset, instr_eq⟩ := is_switch
      have edges_kept : (action.run state).state.addresses.edges = state.addresses.edges :=
        planned.footprint.frame state .edges (by simp [instr_eq, Instr.parts])
      unfold Planned at planned
      simp only [instr_eq] at planned
      subst planned
      rw [switches_writeSwitch, MethodState.caseEdges, edges_kept]
      simp only [LocatedInstr.switchTarget?, instr_eq]
      cases Address.offset? here.address offset with
      | none => simpa [remaining, handOut, MethodState.caseEdges] using holds
      | some target =>
        refine ⟨?_, ?_⟩
        · exact holds.register target _
        · simp [handOut, MethodState.caseEdges]
    · have no_switch : ∀ kind key offset, here.instr ≠ .switch kind key offset :=
        fun kind key offset instr_eq => is_switch ⟨kind, key, offset, instr_eq⟩
      have nothing : here.switchTarget? = none := by
        unfold LocatedInstr.switchTarget?
        split
        next kind key offset instr_eq => exact absurd instr_eq (no_switch kind key offset)
        next => rfl
      obtain ⟨switches_eq, edges_eq⟩ := planned.switches_same table_eq no_switch state
      rw [switches_eq, edges_eq, nothing]
      simpa [remaining, handOut] using holds

/-! ## Runs -/

/-- What a run through instructions does to the waiting switches, and the cases that it queues. -/
theorem Decodes.serves {instrs : List LocatedInstr} {state final : MethodState}
    {events : List Event} (run : cx.Decodes instrs state events final)
    {waiting : List (Address × SwitchUse)} (holds : state.switches.Holds waiting) :
    final.switches.Holds (remaining waiting (switchDelivery.operations instrs)) ∧
      final.caseEdges = state.caseEdges ++
        (handOut waiting (switchDelivery.operations instrs)).flatMap cx.servedEdges := by
  induction run generalizing waiting with
  | nil => exact ⟨holds, by simp [Delivery.operations, handOut]⟩
  | @cons here rest state final events action planned later induction =>
    have reached_holds : (state.reach here.address here.index).switches.Holds waiting := holds
    obtain ⟨step_holds, step_edges⟩ := planned.serves reached_holds
    obtain ⟨rest_holds, rest_edges⟩ := induction step_holds
    have reached_edges : (state.reach here.address here.index).caseEdges = state.caseEdges := rfl
    rw [switchDelivery.operations_cons, remaining_append, handOut_append, List.flatMap_append,
      ← List.append_assoc]
    refine ⟨rest_holds, ?_⟩
    rw [rest_edges, step_edges, reached_edges]
    rfl

theorem Decodes.serves_entry {instrs : List LocatedInstr} {events : List Event}
    {final : MethodState} (run : cx.Decodes instrs cx.entryState events final) :
    final.switches.Holds (remaining [] (switchDelivery.operations instrs)) ∧
      final.caseEdges =
        (handOut [] (switchDelivery.operations instrs)).flatMap cx.servedEdges := by
  have switches_eq : cx.entryState.switches = .empty := cx.entryState_same .switches (by simp)
  have edges_eq : cx.entryState.addresses.edges = #[] := cx.entryState_same .edges (by simp)
  have holds : cx.entryState.switches.Holds [] := switches_eq ▸ holds_empty
  have caseEdges_eq : cx.entryState.caseEdges = [] := by simp [MethodState.caseEdges, edges_eq]
  obtain ⟨final_holds, final_edges⟩ := run.serves holds
  rw [caseEdges_eq, List.nil_append] at final_edges
  exact ⟨final_holds, final_edges⟩

end MethodContext

/-! ## Rows -/

namespace AddressMap

variable (map : AddressMap) (method : String)

/-- The rows of cases are made of the edges with keys. -/
theorem rowsOf_cases (wellFormed : ∀ edge ∈ map.edges.toList, edge.WellFormed)
    (layout : SwitchKind) :
    rowsOf (MethodContext.caseRelation layout)
        ((map.write method : Emit Unit Unit).run ()).events =
      (map.edges.toList.filter (·.key.isSome)).filterMap fun edge =>
        if edge.relation = MethodContext.caseRelation layout then
          (map.targetOf? edge).map (edgeRow method edge)
        else none := by
  have distinct : MethodContext.caseRelation layout ≠ .dexInstructionAddressMap := by
    cases layout <;> simp [MethodContext.caseRelation]
  rw [map.rowsOf_write_edges _ distinct, List.filterMap_filter]
  refine List.filterMap_congr fun edge member => ?_
  split
  next same =>
    have known := wellFormed edge member
    unfold Edge.WellFormed at known
    cases key_eq : edge.key with
    | some key => rfl
    | none =>
      simp only [key_eq, same] at known
      cases layout <;> simp [MethodContext.caseRelation] at known
  next => split <;> rfl

/-- The rows of the edges that a payload queues for a switch. -/
theorem filterMap_servedEdges (cx : MethodContext) (layout : SwitchKind)
    (given : CaseTable × SwitchUse) :
    (cx.servedEdges given).filterMap (fun edge =>
        if edge.relation = MethodContext.caseRelation layout then
          (map.targetOf? edge).map (edgeRow cx.id edge)
        else none) =
      if given.1.kind = layout then given.1.rows cx.id map.indices.toList given.2 else [] := by
  obtain ⟨table, use⟩ := given
  have relation_iff : MethodContext.caseRelation table.kind = MethodContext.caseRelation layout ↔
      table.kind = layout := by
    cases table.kind <;> cases layout <;> simp [MethodContext.caseRelation]
  unfold MethodContext.servedEdges MethodContext.caseEdges
  rw [List.filterMap_map]
  by_cases same : table.kind = layout
  · rw [if_pos same, CaseTable.rows]
    refine List.filterMap_congr fun ⟨key, offset⟩ _ => ?_
    simp only [Function.comp_apply, if_pos (relation_iff.2 same), targetOf?, lookup_toList]
    rfl
  · rw [if_neg same, List.filterMap_eq_nil_iff]
    intro entry _
    exact if_neg fun relation_eq => same (relation_iff.1 relation_eq)

theorem reportsOf_write : reportsOf ((map.write method : Emit Unit Unit).run ()).events = [] := by
  rw [reportsOf, noticesOf_write, List.filterMap_filterMap, List.filterMap_eq_nil_iff]
  intro edge _
  split <;> rfl

end AddressMap

namespace CaseTable

theorem head?_of_mem_rows {table : CaseTable} {method : String} {entries : List (Address × Nat)}
    {use : SwitchUse} {row : List String} (member : row ∈ table.rows method entries use)
    (index : Nat) :
    (row.head? == some (Identifier.instruction method "switch" index)) = (use.index == index) := by
  obtain ⟨⟨key, offset⟩, -, row_eq⟩ := List.mem_filterMap.1 member
  obtain ⟨target, -, rfl⟩ := Option.map_eq_some_iff.1 row_eq
  rw [Bool.eq_iff_iff, beq_iff_eq, beq_iff_eq, List.head?_cons, Option.some_inj,
    Identifier.instruction_inj]

end CaseTable

namespace CodeItem

variable {code : CodeItem} {here : LocatedInstr}

theorem casesOf?_eq_some_iff {table : CaseTable} :
    code.casesOf? here = some table ↔
      ∃ payload, code.Reads Instr.caseTable? here.index payload ∧
        here.switchTarget? = some payload.address ∧ payload.instr.caseTable? = some table := by
  unfold casesOf?
  rw [Option.bind_eq_some_iff]
  constructor
  · rintro ⟨target, target_eq, read_eq⟩
    obtain ⟨payload, reads, rfl, table_eq⟩ := readBehind?_eq_some_iff.1 read_eq
    exact ⟨payload, reads, target_eq, table_eq⟩
  · rintro ⟨payload, reads, target_eq, table_eq⟩
    exact ⟨payload.address, target_eq, readBehind?_eq_some_iff.2 ⟨payload, reads, rfl, table_eq⟩⟩

theorem casesOf?_eq_of_narrow (narrow : totalSize code.instructions < 2 ^ 64)
    {payload : LocatedInstr} {table : CaseTable} (member : payload ∈ code.located)
    (behind : here.index < payload.index) (target_eq : here.switchTarget? = some payload.address)
    (table_eq : payload.instr.caseTable? = some table) : code.casesOf? here = some table :=
  casesOf?_eq_some_iff.2 ⟨payload,
    reads_of_narrow narrow (fun _ _ => Instr.size_ne_of_caseTable?) member behind, target_eq,
    table_eq⟩

theorem fate?_switchDelivery :
    switchDelivery.fate? code here = here.switchTarget?.map fun target =>
      (code.readBehind? Instr.caseTable? here.index target, here.asUse) := by
  have operation_eq : switchDelivery.operation? here = here.switchOperation? := rfl
  rw [Delivery.fate?, operation_eq, LocatedInstr.switchOperation?]
  cases table_eq : here.instr.caseTable? with
  | none => cases here.switchTarget? <;> rfl
  | some table =>
    have no_target : here.switchTarget? = none := by
      unfold LocatedInstr.switchTarget?
      split
      next instr_eq => simp [instr_eq, Instr.caseTable?] at table_eq
      next => rfl
    rw [no_target]
    rfl

theorem filter_handOut_switch (member : here ∈ code.located) :
    (handOut [] (switchDelivery.operations code.located)).filter (·.2.index == here.index) =
      ((code.casesOf? here).map (·, here.asUse)).toList := by
  have own := switchDelivery.filter_handOut code member
  rw [fate?_switchDelivery] at own
  rw [casesOf?]
  refine own.trans ?_
  cases here.switchTarget? <;> rfl

/-- Cases are handed out to switches that they belong to. -/
theorem exists_switch_of_mem_handOut {given : CaseTable × SwitchUse}
    (member : given ∈ handOut [] (switchDelivery.operations code.located)) :
    ∃ here ∈ code.located, code.casesOf? here = some given.1 ∧ given.2 = here.asUse := by
  obtain ⟨here, here_mem, fate_eq⟩ := switchDelivery.exists_of_mem_handOut code member
  rw [fate?_switchDelivery] at fate_eq
  obtain ⟨target, target_eq, pair_eq⟩ := Option.map_eq_some_iff.1 fate_eq
  obtain ⟨read_eq, use_eq⟩ := Prod.ext_iff.1 pair_eq
  refine ⟨here, here_mem, ?_, use_eq.symm⟩
  rw [casesOf?, target_eq]
  exact read_eq

theorem length_remaining_switches :
    (remaining [] (switchDelivery.operations code.located)).length =
      code.unservedSwitches.length := by
  rw [switchDelivery.length_remaining, unservedSwitches, ← List.countP_eq_length_filter]
  refine List.countP_congr fun here _ => ?_
  rw [fate?_switchDelivery, casesOf?]
  cases here.switchTarget? <;> simp

end CodeItem

namespace MethodContext.Phases

variable {cx : MethodContext} {code : CodeItem} {events : List Event}

/-- The rows of cases are those of the switches with payloads behind them. -/
theorem rowsOf_cases (phases : cx.Phases code events) (layout : SwitchKind) :
    rowsOf (caseRelation layout) events =
      (handOut [] (switchDelivery.operations code.located)).flatMap fun given =>
        if given.1.kind = layout then
          given.1.rows cx.id (closedMap code phases.final).indices.toList given.2
        else [] := by
  have late : caseRelation layout ∈ lateRelations := by cases layout <;> decide
  have wellFormed : ∀ edge ∈ (closedMap code phases.final).edges.toList, edge.WellFormed :=
    phases.run.queues_entry.wellFormed
  have edges_eq : (closedMap code phases.final).edges.toList.filter (·.key.isSome) =
      (handOut [] (switchDelivery.operations code.located)).flatMap cx.servedEdges :=
    phases.run.serves_entry.2
  rw [phases.rowsOf_late late, AddressMap.rowsOf_cases _ _ wellFormed, edges_eq,
    List.filterMap_flatMap]
  exact List.flatMap_congr fun given _ => AddressMap.filterMap_servedEdges _ cx layout given

theorem filter_rowsOf_cases (phases : cx.Phases code events) (layout : SwitchKind)
    {here : LocatedInstr} (member : here ∈ code.located) :
    (rowsOf (caseRelation layout) events).filter
        (·.head? == some (Identifier.instruction cx.id "switch" here.index)) =
      ((code.casesOf? here).map (·, here.asUse)).toList.flatMap fun given =>
        if given.1.kind = layout then
          given.1.rows cx.id (closedMap code phases.final).indices.toList given.2
        else [] := by
  rw [phases.rowsOf_cases, ← code.filter_handOut_switch member]
  refine filter_flatMap_eq fun given _ row row_mem => ?_
  split at row_mem
  next => exact CaseTable.head?_of_mem_rows row_mem here.index
  next => cases row_mem

theorem reportsOf_eq (phases : cx.Phases code events) :
    reportsOf events = reportsOf (cx.waitingEvents phases.final) := by
  have handled_quiet : reportsOf (cx.handlerEvents code phases.final) = [] :=
    (cx.footprint_writeExceptions code.tries).quiet _
  have reports_eq := congrArg reportsOf phases.events_eq
  simpa only [reportsOf_append, phases.early_quiet, phases.run.quiet, phases.summary_quiet,
    handled_quiet, AddressMap.reportsOf_write, List.nil_append, List.append_nil] using reports_eq

theorem filter_reportsOf_switch (phases : cx.Phases code events) :
    (reportsOf events).filter (·.2.1 == "switch") =
      if 0 < code.unservedSwitches.length then
        [(cx.id, "switch", code.unservedSwitches.length)]
      else [] := by
  have residual_eq : phases.final.switches.residual = code.unservedSwitches.length := by
    rw [phases.run.serves_entry.1.residual_eq, CodeItem.length_remaining_switches]
  have fills_other : (reportsOf (cx.residualEvents phases.final.fills "fill-array-data")).filter
      (·.2.1 == "switch") = [] := by
    rw [reportsOf_residualEvents]
    split
    · simp
    · rfl
  rw [phases.reportsOf_eq, waitingEvents, reportsOf_append, List.filter_append, fills_other,
    List.nil_append, reportsOf_residualEvents, residual_eq]
  split
  · simp
  · rfl

end MethodContext.Phases

/-- A switch has a row for each case that its payload lists and whose target the address map knows,
in the order of the cases, in the relation of the layout of the payload; its payload is the one that
stands behind it at its target, and the first of them where a body is so long that it comes round to
that address again.  Without such a payload it has no row of a case, and is counted at the end of
the body. -/
theorem switch_rows {container : Container} {definition : MethodDef} {code : CodeItem}
    {cache : SignatureCache} {extracted : ExtractedMethod} (code_eq : definition.code = some code)
    (value_eq : ((definition.extract container).run cache).value = .ok extracted) :
    ∃ entries : List (Address × Nat),
      let events := ((definition.extract container).run cache).events
      rowsOf .dexInstructionAddressMap events =
        (entries.map fun entry => [extracted.id, toString entry.2, toString entry.1]) ∧
      (∀ address index, entries.lookup address = some index ↔ code.IsLastAt address index) ∧
      (∀ here table, code.casesOf? here = some table ↔
        ∃ payload, code.Reads Instr.caseTable? here.index payload ∧
          here.switchTarget? = some payload.address ∧ payload.instr.caseTable? = some table) ∧
      (totalSize code.instructions < 2 ^ 64 → ∀ here, ∀ payload ∈ code.located,
        here.index < payload.index → here.switchTarget? = some payload.address →
          ∀ table, payload.instr.caseTable? = some table → code.casesOf? here = some table) ∧
      (∀ here ∈ code.located, ∀ kind key offset, here.instr = .switch kind key offset →
        let insn := Identifier.instruction extracted.id "switch" here.index
        let rows (layout : SwitchKind) :=
          (rowsOf (MethodContext.caseRelation layout) events).filter (·.head? == some insn)
        match code.casesOf? here with
        | some table =>
          rows table.kind = table.rows extracted.id entries here.asUse ∧
            ∀ layout, layout ≠ table.kind → rows layout = []
        | none => ∀ layout, rows layout = []) ∧
      (reportsOf events).filter (·.2.1 == "switch") =
        if 0 < code.unservedSwitches.length then
          [(extracted.id, "switch", code.unservedSwitches.length)]
        else [] := by
  obtain ⟨cx, phases, id_eq, -⟩ := definition.exists_phases code_eq value_eq
  let map := MethodContext.closedMap code phases.final
  have wellFormed : ∀ edge ∈ map.edges.toList, edge.WellFormed :=
    phases.run.queues_entry.wellFormed
  have indices_late : Relation.dexInstructionAddressMap ∈ lateRelations := by decide
  refine ⟨map.indices.toList, ?_, ?_, fun here table => CodeItem.casesOf?_eq_some_iff,
    fun narrow here payload member behind target_eq table table_eq =>
      CodeItem.casesOf?_eq_of_narrow narrow member behind target_eq table_eq, ?_, ?_⟩
  · rw [← id_eq, ← map.rowsOf_write_indices _ wellFormed]
    exact phases.rowsOf_late indices_late
  · intro address index
    rw [map.lookup_toList]
    exact phases.run.indexOf?_closedMap address index
  · intro here member kind key offset _
    have own := fun layout => phases.filter_rowsOf_cases layout member
    rw [id_eq] at own
    dsimp only
    cases cases_eq : code.casesOf? here with
    | none =>
      intro layout
      have layout_own := own layout
      rw [cases_eq] at layout_own
      exact layout_own
    | some table =>
      rw [cases_eq] at own
      constructor
      · refine (own table.kind).trans ?_
        simp [map]
      · intro layout distinct
        refine (own layout).trans ?_
        simp [Ne.symm distinct]
  · rw [← id_eq]
    exact phases.filter_reportsOf_switch

/-- A body with a switch, whose payload lists a known and an unknown target, and a switch that has
no payload. -/
def selection : List Instr :=
  [.switch .packed ⟨0⟩ 7, .switch .sparse ⟨0⟩ 0, .returnVoid,
    .packedSwitchPayload 0x7fffffff [6, 100]]

theorem exists_extract_selection :
    ∃ extracted,
      (((loneMethod selection).extract loneContainer).run .empty).value = .ok extracted :=
  MethodDef.exists_extract_sound rfl rfl (by decide)

/-- The first switch has a row for its known target, under the first key; the second one waits. -/
theorem switch_rows_selection :
    ∃ extracted : ExtractedMethod,
      let events := (((loneMethod selection).extract loneContainer).run .empty).events
      let insn := Identifier.instruction extracted.id "switch" 1
      (rowsOf .tableSwitchTarget events).filter (·.head? == some insn) =
          [[insn, toString (0x7fffffff : Int), toString 3]] ∧
        (reportsOf events).filter (·.2.1 == "switch") = [(extracted.id, "switch", 1)] := by
  obtain ⟨extracted, value_eq⟩ := exists_extract_selection
  obtain ⟨entries, -, known, -, -, switches, reports⟩ := switch_rows rfl value_eq
  have first := (switches ⟨1, 0, .switch .packed ⟨0⟩ 7⟩ (by decide) _ _ _ rfl).1
  have known_target : entries.lookup 6 = some 3 := by
    rw [known]
    refine ⟨by decide, by decide, rfl, fun later behind le => ?_⟩
    change later ≤ 5 at le
    interval_cases later <;> decide
  have unknown_target : entries.lookup 100 = none := by
    rw [Option.eq_none_iff_forall_not_mem]
    intro index found
    obtain ⟨positive, le, address_eq, -⟩ := (known 100 index).1 found
    change index ≤ 5 at le
    interval_cases index <;> cases address_eq
  refine ⟨extracted, first.trans ?_, reports⟩
  have known_offset : Address.offset? 0 6 = some 6 := rfl
  have unknown_offset : Address.offset? 0 100 = some 100 := rfl
  simp [CaseTable.rows, LocatedInstr.asUse, known_offset, unknown_offset, known_target,
    unknown_target]

end DalvikFacts
