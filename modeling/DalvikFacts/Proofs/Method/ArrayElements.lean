import DalvikFacts.Proofs.Method.Account
import DalvikFacts.Proofs.Method.Fills

/-!
# Elements of arrays

A payload gives its elements to every `fill-array-data` that waits for it: for each of them all
values in order, each with the row of the number and the row of the element.  The array is that of
the latest `new-array` before the instruction that fills it, unless another one has taken it since.
-/

namespace DalvikFacts

open Pending

/-- The relations that payloads of arrays write to. -/
def elementRelations : List Relation :=
  [.numConstantRaw, .arrayInitialValueFromConst]

/-- The types of elements, by their width in bytes. -/
def elementTypes : List (Nat × String) :=
  [(1, "byte"), (2, "short"), (4, "int"), (8, "long")]

theorem MethodContext.elementType?_eq_some_iff {width : Nat} {type : String} :
    elementType? width = some type ↔ (width, type) ∈ elementTypes := by
  unfold elementType? elementTypes
  split <;> simp_all [eq_comm]

/-- The values of a payload, with the type that their width stands for. -/
def ElementTable.typed? (table : ElementTable) : Option (String × List Int) :=
  (MethodContext.elementType? table.width).map (·, table.values)

theorem Instr.elementTable?_eq_some_iff {instr : Instr} {table : ElementTable} :
    instr.elementTable? = some table ↔ instr = .arrayPayload table.width table.values := by
  constructor
  · intro table_eq
    unfold elementTable? at table_eq
    split at table_eq
    next => cases table_eq; rfl
    next => cases table_eq
  · rintro rfl
    rfl

/-- The elements that an array gets from a payload. -/
structure Filling where
  type : String
  values : List Int
  fill : ArrayFill

namespace Filling

/-- The rows of elements. -/
def rows (filling : Filling) (cx : MethodContext) : List (List String) :=
  filling.fill.rows cx.id (cx.variableOf filling.fill.array) filling.values

/-- The rows of elements, each behind the row of its number. -/
def facts (filling : Filling) (cx : MethodContext) : List Fact :=
  filling.values.zipIdx.flatMap fun (value, position) =>
    [⟨.numConstantRaw, [toString value, filling.type]⟩,
      ⟨.arrayInitialValueFromConst,
        [cx.assignInsn filling.fill.index, toString filling.fill.index,
          cx.variableOf filling.fill.array, toString position, toString value, filling.fill.heap,
          cx.id]⟩]

/-- What a payload gives to an array: nothing when the width of its elements is no type's. -/
def given? (given : ElementTable × ArrayFill) : Option Filling :=
  given.1.typed?.map fun (type, values) => ⟨type, values, given.2⟩

theorem rowsIn_facts (filling : Filling) (cx : MethodContext) :
    rowsIn .arrayInitialValueFromConst (filling.facts cx) = filling.rows cx := by
  rw [facts, rowsIn_flatMap, rows, ArrayFill.rows, List.map_eq_flatMap]
  simp only [rowsIn_cons, rowsIn_nil, reduceCtorEq, if_false, if_true, List.append_nil,
    List.nil_append]
  rfl

theorem head?_of_mem_rows {filling : Filling} {cx : MethodContext} {row : List String}
    (member : row ∈ filling.rows cx) (index : Nat) :
    (row.head? == some (cx.assignInsn index)) = (filling.fill.index == index) := by
  obtain ⟨⟨value, position⟩, -, rfl⟩ := List.mem_map.1 member
  rw [Bool.eq_iff_iff, beq_iff_eq, beq_iff_eq, List.head?_cons, Option.some_inj,
    MethodContext.assignInsn, MethodContext.insn, Identifier.instruction_inj]

end Filling

namespace CodeItem

variable {code : CodeItem} {here : LocatedInstr}

/-- A `new-array` before an instruction, with no `fill-array-data` in between. -/
structure Offers (code : CodeItem) (maker here : LocatedInstr) : Prop where
  located : maker ∈ code.located
  behind : maker.index < here.index
  makes : ∃ dst size type, maker.instr = .newArray dst size type
  untaken : ∀ next ∈ code.located, maker.index < next.index → next.index < here.index →
    ∀ array offset, next.instr ≠ .fillArrayData array offset

/-- The latest `new-array` before an instruction that no `fill-array-data` in between has taken. -/
structure OffersLast (code : CodeItem) (maker here : LocatedInstr) : Prop where
  offers : code.Offers maker here
  latest : ∀ other, code.Offers other here → other.index ≤ maker.index

/-- A payload behind a `fill-array-data`, at its target, with values of a known type. -/
structure Feeds (code : CodeItem) (payload here : LocatedInstr) (type : String)
    (values : List Int) : Prop where
  reads : code.Reads Instr.elementTable? here.index payload
  target : ∃ array offset, here.instr = .fillArrayData array offset ∧
    Address.offset? here.address offset = some payload.address
  elements : ∃ width, payload.instr = .arrayPayload width values ∧ (width, type) ∈ elementTypes

/-- The latest array offered is the one that is kept up to the instruction. -/
theorem Offers.exists_last {maker : LocatedInstr} (offers : code.Offers maker here)
    (here_mem : here ∈ code.located) :
    ∃ last, code.OffersLast last here ∧ code.KeepsArray last here := by
  obtain ⟨early, between, late, located_eq⟩ :=
    code.exists_between offers.located here_mem offers.behind
  obtain ⟨dst, size, type, maker_eq⟩ := offers.makes
  rcases forall_or_exists_last (fun next : LocatedInstr => next.instr.handlesArray)
      (maker :: between) with untouched | ⟨front, last, back, split_eq, handles, untouched⟩
  · have maker_untouched := untouched maker List.mem_cons_self
    rw [maker_eq] at maker_untouched
    cases maker_untouched
  · have last_eq : code.located = (early ++ front) ++ last :: (back ++ here :: late) := by
      rw [located_eq, ← List.cons_append, split_eq]
      simp
    have keeps : code.KeepsArray last here := (keepsArray_iff last_eq).2 untouched
    have not_before : maker.index ≤ last.index := by
      have member : last ∈ maker :: between := by simp [split_eq]
      rcases List.mem_cons.1 member with rfl | inside
      · exact Nat.le_refl _
      · exact Nat.le_of_lt ((mem_between_iff located_eq keeps.located).1 inside).1
    have makes : ∃ dst size type, last.instr = .newArray dst size type := by
      rcases Nat.eq_or_lt_of_le not_before with same | behind
      · have maker_is : maker = last :=
          List.inj_on_of_nodup_map code.located_index_nodup offers.located keeps.located same
        exact maker_is ▸ offers.makes
      · cases instr_eq : last.instr with
        | newArray dst size type => exact ⟨dst, size, type, rfl⟩
        | fillArrayData array offset =>
          exact absurd instr_eq (offers.untaken last keeps.located behind keeps.behind array offset)
        | _ => simp [instr_eq, Instr.handlesArray] at handles
    refine ⟨last, ⟨⟨keeps.located, keeps.behind, makes, ?_⟩, ?_⟩, keeps⟩
    · intro next next_mem after_last before_here array offset next_eq
      exact offers.untaken next next_mem (by omega) before_here array offset next_eq
    · intro other other_offers
      by_contra later
      obtain ⟨_, _, _, other_eq⟩ := other_offers.makes
      have other_untouched :=
        keeps.untouched other other_offers.located (by omega) other_offers.behind
      rw [other_eq] at other_untouched
      cases other_untouched

/-- A `fill-array-data` gets typed values exactly when a payload feeds it. -/
theorem exists_feeds_iff {type : String} {values : List Int} :
    (code.elementsOf? here).bind ElementTable.typed? = some (type, values) ↔
      ∃ payload, code.Feeds payload here type values := by
  have read_iff : ∀ address table,
      code.readBehind? Instr.elementTable? here.index address = some table ↔
        ∃ payload, code.Reads Instr.elementTable? here.index payload ∧
          payload.address = address ∧ payload.instr = .arrayPayload table.width table.values := by
    intro address table
    rw [readBehind?_eq_some_iff]
    simp only [Instr.elementTable?_eq_some_iff]
  have typed_iff : ∀ table : ElementTable, table.typed? = some (type, values) ↔
      (table.width, type) ∈ elementTypes ∧ table.values = values := by
    intro table
    rw [ElementTable.typed?, Option.map_eq_some_iff, ← MethodContext.elementType?_eq_some_iff]
    simp
  constructor
  · intro typed_eq
    obtain ⟨table, elements_eq, table_eq⟩ := Option.bind_eq_some_iff.1 typed_eq
    obtain ⟨address, target_eq, read_eq⟩ := Option.bind_eq_some_iff.1 elements_eq
    obtain ⟨payload, reads, rfl, payload_eq⟩ := (read_iff _ _).1 read_eq
    obtain ⟨known, rfl⟩ := (typed_iff table).1 table_eq
    refine ⟨payload, reads, ?_, table.width, payload_eq, known⟩
    unfold LocatedInstr.fillTarget? at target_eq
    split at target_eq
    next array offset here_eq => exact ⟨array, offset, here_eq, target_eq⟩
    next => cases target_eq
  · rintro ⟨payload, reads, ⟨array, offset, here_eq, target_eq⟩, width, payload_eq, known⟩
    have elements_eq : code.elementsOf? here = some ⟨width, values⟩ := by
      rw [elementsOf?, LocatedInstr.fillTarget?, here_eq]
      dsimp only
      rw [target_eq, Option.bind_some, read_iff]
      exact ⟨payload, reads, rfl, payload_eq⟩
    rw [elements_eq, Option.bind_some, typed_iff]
    exact ⟨known, rfl⟩

end CodeItem

/-- The rows of elements among facts, with those of their numbers. -/
def elementFacts (facts : List Fact) : List Fact :=
  facts.filter (·.relation ∈ elementRelations)

theorem elementFacts_append (facts others : List Fact) :
    elementFacts (facts ++ others) = elementFacts facts ++ elementFacts others :=
  List.filter_append ..

theorem rowsIn_elementFacts (facts : List Fact) :
    rowsIn .arrayInitialValueFromConst (elementFacts facts) =
      rowsIn .arrayInitialValueFromConst facts := by
  rw [elementFacts, rowsIn, List.filter_filter, rowsIn]
  congr 2
  funext fact
  by_cases same : fact.relation = .arrayInitialValueFromConst <;> simp [same, elementRelations]

theorem Within.elementFacts_eq_nil {relations : List Relation} {events : List Event}
    (within : Within relations events)
    (apart : ∀ relation ∈ relations, relation ∉ elementRelations) :
    elementFacts (factsOf events) = [] := by
  rw [elementFacts, List.filter_eq_nil_iff]
  intro fact member
  have written := within.facts fact ((mem_factsOf _).1 member)
  simpa using apart _ written

namespace MethodContext

variable {cx : MethodContext} {here : LocatedInstr}

/-! ## Steps -/

theorem elementFacts_filled (type : String) (values : List Int) (fill : ArrayFill) :
    elementFacts (factsAmong (cx.filled type values fill)) =
      Filling.facts ⟨type, values, fill⟩ cx := by
  have all_kept : ∀ fact ∈ Filling.facts ⟨type, values, fill⟩ cx,
      decide (fact.relation ∈ elementRelations) = true := by
    intro fact member
    obtain ⟨entry, -, member⟩ := List.mem_flatMap.1 member
    simp only [List.mem_cons, List.not_mem_nil, or_false] at member
    rcases member with rfl | rfl <;> rfl
  rw [filled, factsAmong_cons_mention, factsAmong_flatMap]
  exact List.filter_eq_self.2 all_kept

/-- A payload of arrays writes the elements of all arrays that wait for it, one after the other. -/
theorem elements_writeArrayPayload (width : Nat) (values : List Int) (state : MethodState) :
    elementFacts (factsOf ((cx.writeArrayPayload here width values).run state).events) =
      (((state.fills.waitingAt here.address).map (ElementTable.mk width values, ·)).filterMap
        Filling.given?).flatMap (·.facts cx) := by
  have undeclared : decide (Relation.varDeclaringMethod ∈ elementRelations) = false := rfl
  have kept := cx.filter_factsOf_render (· ∈ elementRelations) undeclared
    state.declared (cx.payloadOutputs here width values (state.fills.waitingAt here.address))
  rw [(cx.says_writeArrayPayload here state width values).run, elementFacts, kept]
  change elementFacts (factsAmong (cx.payloadOutputs here width values _)) = _
  generalize state.fills.waitingAt here.address = fills
  have given_eq : ∀ fill, Filling.given? (⟨width, values⟩, fill) =
      (elementType? width).map fun type => ⟨type, values, fill⟩ := by
    intro fill
    rw [Filling.given?, ElementTable.typed?, Option.map_map]
    rfl
  unfold payloadOutputs
  rw [List.filterMap_map]
  simp only [Function.comp_def, given_eq]
  cases elementType? width with
  | none => split <;> simp [elementFacts]
  | some type =>
    have each : ∀ fills : List ArrayFill,
        elementFacts (factsAmong (fills.flatMap (cx.filled type values))) =
          (fills.map fun fill => Filling.mk type values fill).flatMap (·.facts cx) := by
      intro fills
      rw [factsAmong_flatMap, elementFacts, List.filter_flatMap, List.flatMap_map]
      exact List.flatMap_congr fun fill _ => elementFacts_filled type values fill
    split
    next none_wait =>
      rw [List.isEmpty_iff.1 none_wait]
      rfl
    next => simpa using each fills

/-- The elements that an instruction writes, given the arrays that wait. -/
theorem Planned.elements {result : Option PendingResult} {action : MethodEmit Unit}
    (planned : cx.Planned here result action) {waiting : List (Address × ArrayFill)}
    {state : MethodState} (holds : state.fills.Holds waiting) :
    elementFacts (factsOf (action.run state).events) =
      ((handOut waiting (here.fillOperation? state.carry.newArray).toList).filterMap
        Filling.given?).flatMap (·.facts cx) := by
  have within := planned.footprint.within state
  cases instr_eq : here.instr with
  | arrayPayload width values =>
    unfold Planned at planned
    simp only [instr_eq] at planned
    subst planned
    rw [elements_writeArrayPayload, holds, LocatedInstr.fillOperation?, instr_eq]
    simp [handOut]
  | fillArrayData array offset =>
    rw [within.elementFacts_eq_nil (by simp [instr_eq, Instr.relations])]
    rw [LocatedInstr.fillOperation?, instr_eq]
    cases state.carry.newArray with
    | none => rfl
    | some newArray =>
      dsimp only [Option.bind_some]
      cases Address.offset? here.address offset <;> rfl
  | _ =>
    rw [within.elementFacts_eq_nil (by
      simp [instr_eq, Instr.relations, callRelations, resultRelations, elementRelations])]
    rw [LocatedInstr.fillOperation?, instr_eq]
    rfl

/-! ## Runs -/

/-- The elements that a run through instructions writes. -/
theorem Passes.elements {before : Nat → MethodState} {instrs : List LocatedInstr}
    {state final : MethodState} {events : List Event}
    (run : cx.Passes before instrs state events final) {waiting : List (Address × ArrayFill)}
    (holds : state.fills.Holds waiting) :
    elementFacts (factsOf events) =
      ((handOut waiting ((fillDelivery (lastArray before)).operations instrs)).filterMap
        Filling.given?).flatMap (·.facts cx) := by
  induction run generalizing waiting with
  | nil => rfl
  | @cons here rest state final events action reached planned later induction =>
    have reached_holds : (before here.index).fills.Holds waiting := by
      rw [reached]
      exact holds
    obtain ⟨step_holds, -⟩ := planned.fills reached_holds
    rw [factsOf_append, elementFacts_append, planned.elements reached_holds, induction step_holds,
      Delivery.operations_cons, handOut_append, List.filterMap_append, List.flatMap_append]
    rfl

variable {code : CodeItem} {before : Nat → MethodState} {state final : MethodState}
  {events : List Event}

theorem Passes.lastArray_of_offers (run : cx.Passes before code.located state events final)
    (here_mem : here ∈ code.located) {maker : LocatedInstr} (offers : code.Offers maker here) :
    ∃ last, code.OffersLast last here ∧ ∃ dst size type found number,
      last.instr = .newArray dst size type ∧ cx.container.typeAt type = .ok found ∧
      let heap := Identifier.allocation cx.id found.sourceName number
      lastArray before here.index = some ⟨last.index, heap⟩ ∧
      (rowsOf .assignHeapAllocation events).filter (·.head? == some (cx.assignInsn last.index)) =
        [[cx.assignInsn last.index, toString last.index, heap, cx.variableOf dst, cx.id,
          Identifier.lineText (cx.line? last)]] := by
  obtain ⟨last, offers_last, keeps⟩ := offers.exists_last here_mem
  obtain ⟨dst, size, type, last_eq⟩ := offers_last.offers.makes
  obtain ⟨early, between, late, located_eq⟩ :=
    code.exists_between keeps.located here_mem keeps.behind
  have untouched := (CodeItem.keepsArray_iff located_eq).1 keeps
  have distinct := code.located_index_nodup
  rw [located_eq] at run distinct
  obtain ⟨found, number, found_eq, slot_eq, assign_eq⟩ :=
    run.lastArray_of_newArray distinct last_eq untouched
  exact ⟨last, offers_last, dst, size, type, found, number, last_eq, found_eq, slot_eq, assign_eq⟩

theorem Passes.lastArray_of_not_offers (run : cx.Passes before code.located state events final)
    (start : state.carry.newArray = none) (here_mem : here ∈ code.located)
    (unoffered : ∀ maker, ¬ code.Offers maker here) : lastArray before here.index = none := by
  obtain ⟨early, late, located_eq⟩ := List.append_of_mem here_mem
  have whole := located_eq
  rw [located_eq] at run
  refine run.lastArray_eq_none start ?_
  rintro front maker between dst size type rfl maker_eq
  rw [List.append_assoc, List.cons_append] at located_eq
  by_contra untouched
  have keeps : code.KeepsArray maker here := by
    refine (CodeItem.keepsArray_iff located_eq).2 fun next member => ?_
    by_contra handles
    exact untouched ⟨next, member, by simpa using handles⟩
  refine unoffered maker ⟨keeps.located, keeps.behind, ⟨dst, size, type, maker_eq⟩, ?_⟩
  intro next next_mem after_maker before_here array offset next_eq
  have handles := keeps.untouched next next_mem after_maker before_here
  rw [next_eq] at handles
  cases handles

/-! ## Methods -/

/-- What payloads give to arrays, in order. -/
def fillings (before : Nat → MethodState) (code : CodeItem) : List Filling :=
  (handOut [] ((fillDelivery (lastArray before)).operations code.located)).filterMap Filling.given?

theorem exists_of_mem_fillings {filling : Filling} (member : filling ∈ fillings before code) :
    ∃ here ∈ code.located, ∃ offset, here.instr = .fillArrayData filling.fill.array offset ∧
      filling.fill.index = here.index := by
  obtain ⟨given, given_mem, given_eq⟩ := List.mem_filterMap.1 member
  obtain ⟨here, here_mem, fate_eq⟩ :=
    (fillDelivery (lastArray before)).exists_of_mem_handOut code given_mem
  obtain ⟨-, -, rfl⟩ := Option.map_eq_some_iff.1 given_eq
  cases instr_eq : here.instr with
  | fillArrayData array offset =>
    rw [fate?_fillDelivery _ instr_eq] at fate_eq
    obtain ⟨newArray, -, fate_eq⟩ := Option.bind_eq_some_iff.1 fate_eq
    obtain ⟨target, -, fate_eq⟩ := Option.map_eq_some_iff.1 fate_eq
    have entry_eq := congrArg Prod.snd fate_eq
    dsimp only at entry_eq
    rw [← entry_eq]
    exact ⟨here, here_mem, offset, instr_eq, rfl⟩
  | _ =>
    simp [Delivery.fate?, fillDelivery, LocatedInstr.fillOperation?, instr_eq] at fate_eq

/-- A `fill-array-data` with an array has the filling that its payload gives. -/
theorem filter_fillings (before : Nat → MethodState) (here_mem : here ∈ code.located)
    {array : Reg} {offset : Int} (instr_eq : here.instr = .fillArrayData array offset) :
    (fillings before code).filter (·.fill.index == here.index) =
      ((lastArray before here.index).bind fun newArray =>
        ((code.elementsOf? here).bind ElementTable.typed?).map fun (type, values) =>
          ⟨type, values, ⟨array, here.index, newArray.heap⟩⟩).toList := by
  have own : (handOut [] ((fillDelivery (lastArray before)).operations code.located)).filter
      (·.2.index == here.index) = _ :=
    (fillDelivery (lastArray before)).filter_handOut code here_mem
  rw [fate?_fillDelivery _ instr_eq] at own
  have selected : ∀ given : List (ElementTable × ArrayFill),
      (given.filterMap Filling.given?).filter (·.fill.index == here.index) =
        (given.filter (·.2.index == here.index)).filterMap Filling.given? := by
    intro given
    induction given with
    | nil => rfl
    | cons pair rest induction =>
      rw [List.filterMap_cons, List.filter_cons]
      cases given_eq : Filling.given? pair with
      | none =>
        rw [induction]
        split
        · rw [List.filterMap_cons_none given_eq]
        · rfl
      | some filling =>
        have fill_eq : filling.fill = pair.2 := by
          obtain ⟨-, -, rfl⟩ := Option.map_eq_some_iff.1 given_eq
          rfl
        rw [List.filter_cons, fill_eq, induction]
        split
        · rw [List.filterMap_cons_some given_eq]
        · rfl
  rw [fillings, selected, own, CodeItem.elementsOf?, LocatedInstr.fillTarget?, instr_eq]
  dsimp only
  cases lastArray before here.index with
  | none => rfl
  | some newArray =>
    simp only [Option.bind_some]
    cases Address.offset? here.address offset with
    | none => rfl
    | some target =>
      simp only [Option.bind_some, Option.map_some]
      cases code.readBehind? Instr.elementTable? here.index target with
      | none => rfl
      | some table =>
        rw [Option.map_some, Option.toList_some, List.filterMap_cons, List.filterMap_nil,
          Option.bind_some, Filling.given?]
        cases table.typed? <;> rfl

/-- Payloads write all rows of elements and of their numbers. -/
theorem Phases.elements (phases : cx.Phases code events)
    (run : cx.Passes before code.located cx.entryState phases.decoded phases.final) :
    elementFacts (factsOf events) = (fillings before code).flatMap (·.facts cx) := by
  have entry_eq : cx.entryState.fills = .empty := cx.entryState_same .fills (by simp)
  have holds : cx.entryState.fills.Holds [] := entry_eq ▸ holds_empty
  have wellFormed : ∀ edge ∈ (closedMap code phases.final).edges.toList, edge.WellFormed :=
    phases.run.queues_entry.wellFormed
  have written_nil : elementFacts
      (factsOf (((closedMap code phases.final).write cx.id : Emit Unit Unit).run ()).events) =
        [] := by
    rw [elementFacts, List.filter_eq_nil_iff]
    intro fact member
    have late := AddressMap.relation_mem_of_write wellFormed ((mem_factsOf _).1 member)
    have apart : ∀ relation ∈ lateRelations, relation ∉ elementRelations := by decide
    simpa using apart _ late
  have early_nil := phases.early_within.elementFacts_eq_nil (by decide)
  have waiting_nil := (cx.within_waitingEvents phases.final).elementFacts_eq_nil (by simp)
  have handler_nil := (cx.within_handlerEvents code phases.final).elementFacts_eq_nil (by decide)
  have summary_nil := phases.summary_within.elementFacts_eq_nil (by simp)
  rw [congrArg factsOf phases.events_eq]
  simp only [factsOf_append, elementFacts_append, written_nil, early_nil, waiting_nil, handler_nil,
    summary_nil, List.nil_append, List.append_nil]
  exact run.elements holds

end MethodContext

/-- Payloads write the elements of arrays, each behind its number, and nothing else does.  What they
write belongs to a `fill-array-data`.  This one has all values of the payload that feeds it, in the
object of the latest array that is offered to it, and nothing if it lacks an array or a payload. -/
theorem array_elements {container : Container} {definition : MethodDef} {code : CodeItem}
    {cache : SignatureCache} {extracted : ExtractedMethod} (code_eq : definition.code = some code)
    (value_eq : ((definition.extract container).run cache).value = .ok extracted) :
    ∃ (cx : MethodContext) (fillings : List Filling),
      ((MethodContext.create container definition).run cache).value = .ok cx ∧
      cx.id = extracted.id ∧
      let events := ((definition.extract container).run cache).events
      elementFacts (factsOf events) = fillings.flatMap (·.facts cx) ∧
      rowsOf .arrayInitialValueFromConst events = fillings.flatMap (·.rows cx) ∧
      (∀ filling ∈ fillings, ∃ here ∈ code.located, ∃ offset,
        here.instr = .fillArrayData filling.fill.array offset ∧
        filling.fill.index = here.index) ∧
      ∀ here ∈ code.located, ∀ array offset, here.instr = .fillArrayData array offset →
        let own := fillings.filter (·.fill.index == here.index)
        (rowsOf .arrayInitialValueFromConst events).filter
          (·.head? == some (cx.assignInsn here.index)) = own.flatMap (·.rows cx) ∧
        (∀ maker payload type values, code.Offers maker here → code.Feeds payload here type values →
          ∃ last, code.OffersLast last here ∧ ∃ dst size typeIndex found number,
            last.instr = .newArray dst size typeIndex ∧
            container.typeAt typeIndex = .ok found ∧
            let heap := Identifier.allocation cx.id found.sourceName number
            (rowsOf .assignHeapAllocation events).filter
                (·.head? == some (cx.assignInsn last.index)) =
              [[cx.assignInsn last.index, toString last.index, heap, cx.variableOf dst, cx.id,
                Identifier.lineText (cx.line? last)]] ∧
            own = [⟨type, values, ⟨array, here.index, heap⟩⟩]) ∧
        ((∀ maker, ¬ code.Offers maker here) ∨
          (∀ payload type values, ¬ code.Feeds payload here type values) → own = []) := by
  obtain ⟨cx, phases, id_eq, create_eq⟩ := definition.exists_phases code_eq value_eq
  obtain ⟨before, run⟩ := phases.run.exists_passes code.located_index_nodup
  have elements_eq := phases.elements run
  have rows_eq : rowsOf .arrayInitialValueFromConst
      ((definition.extract container).run cache).events =
        (MethodContext.fillings before code).flatMap (·.rows cx) := by
    change rowsIn _ (factsOf ((definition.extract container).run.perform cache).events) = _
    rw [← rowsIn_elementFacts, elements_eq, rowsIn_flatMap]
    simp only [Filling.rowsIn_facts]
  refine ⟨cx, MethodContext.fillings before code, create_eq, id_eq, elements_eq, rows_eq,
    fun filling => MethodContext.exists_of_mem_fillings, ?_⟩
  intro here here_mem array offset here_eq own
  have own_eq : own = _ := MethodContext.filter_fillings before here_mem here_eq
  refine ⟨?_, ?_, ?_⟩
  · rw [rows_eq]
    exact filter_flatMap_eq fun filling _ row row_mem =>
      Filling.head?_of_mem_rows row_mem here.index
  · intro maker payload type values offers feeds
    obtain ⟨last, offers_last, dst, size, typeIndex, found, number, last_eq, found_eq, slot_eq,
      assign_eq⟩ := run.lastArray_of_offers here_mem offers
    rw [(cx.create_outcome create_eq).1] at found_eq
    have typed_eq := CodeItem.exists_feeds_iff.2 ⟨payload, feeds⟩
    refine ⟨last, offers_last, dst, size, typeIndex, found, number, last_eq, found_eq, ?_, ?_⟩
    · exact (congrArg _ phases.rowsOf_assigned).trans assign_eq
    · rw [own_eq, slot_eq, Option.bind_some, typed_eq]
      rfl
  · rintro (unoffered | unfed)
    · have start : cx.entryState.carry.newArray = none := cx.entryState_same .newArray (by simp)
      rw [own_eq, run.lastArray_of_not_offers start here_mem unoffered]
      rfl
    · have untyped : (code.elementsOf? here).bind ElementTable.typed? = none := by
        rw [Option.eq_none_iff_forall_ne_some]
        intro typed typed_eq
        obtain ⟨payload, feeds⟩ := CodeItem.exists_feeds_iff.1 typed_eq
        exact unfed _ _ _ feeds
      rw [own_eq, untyped]
      cases MethodContext.lastArray before here.index <;> rfl

/-- A body that fills two arrays, each right behind its allocation, from one payload. -/
def sharing : CodeItem :=
  { twins with
    instructions :=
      [.const .sixteen ⟨2⟩ 1, .newArray ⟨0⟩ ⟨2⟩ 0, .fillArrayData ⟨0⟩ 10, .newArray ⟨1⟩ ⟨2⟩ 1,
        .fillArrayData ⟨1⟩ 5, .returnVoid, .nop, .arrayPayload 4 [7]] }

theorem exists_extract_sharing :
    ∃ extracted, (({ twinsMethod with code := some sharing }.extract arrayContainer).run
      .empty).value = .ok extracted :=
  MethodDef.exists_extract_sound rfl rfl (by decide)

/-- The payload serves both arrays. -/
theorem array_elements_sharing :
    ∃ (cx : MethodContext) (fillings : List Filling) (heap other : String),
      elementFacts (factsOf (({ twinsMethod with code := some sharing }.extract arrayContainer).run
        .empty).events) = fillings.flatMap (·.facts cx) ∧
      fillings.filter (·.fill.index == 3) = [⟨"int", [7], ⟨⟨0⟩, 3, heap⟩⟩] ∧
      fillings.filter (·.fill.index == 5) = [⟨"int", [7], ⟨⟨1⟩, 5, other⟩⟩] := by
  obtain ⟨extracted, value_eq⟩ := exists_extract_sharing
  obtain ⟨cx, fillings, -, -, elements_eq, -, -, served⟩ := array_elements rfl value_eq
  have offered : ∀ (maker here : LocatedInstr) (dst size : Reg) (type : Nat),
      maker ∈ sharing.located → maker.instr = .newArray dst size type →
      here.index = maker.index + 1 → sharing.Offers maker here := by
    intro maker here dst size type member maker_eq next_to
    refine ⟨member, by omega, ⟨dst, size, type, maker_eq⟩, fun next _ after before => ?_⟩
    omega
  have feeds : ∀ (here : LocatedInstr) (array : Reg) (offset : Int), here.index < 8 →
      here.instr = .fillArrayData array offset → Address.offset? here.address offset = some 14 →
      sharing.Feeds ⟨8, 14, .arrayPayload 4 [7]⟩ here "int" [7] := by
    intro here array offset behind here_eq target_eq
    have reads : sharing.Reads Instr.elementTable? here.index ⟨8, 14, .arrayPayload 4 [7]⟩ :=
      CodeItem.reads_of_narrow (by decide) (fun _ _ => Instr.size_ne_of_elementTable?) (by decide)
        behind
    exact ⟨reads, ⟨array, offset, here_eq, target_eq⟩, 4, rfl, by decide⟩
  obtain ⟨-, first, -⟩ := served ⟨3, 4, .fillArrayData ⟨0⟩ 10⟩ (by decide) _ _ rfl
  obtain ⟨-, second, -⟩ := served ⟨5, 9, .fillArrayData ⟨1⟩ 5⟩ (by decide) _ _ rfl
  obtain ⟨_, _, _, _, _, _, _, _, _, _, first_eq⟩ :=
    first ⟨2, 2, .newArray ⟨0⟩ ⟨2⟩ 0⟩ _ _ _ (offered _ _ _ _ _ (by decide) rfl rfl)
      (feeds _ _ _ (by decide) rfl rfl)
  obtain ⟨_, _, _, _, _, _, _, _, _, _, second_eq⟩ :=
    second ⟨4, 7, .newArray ⟨1⟩ ⟨2⟩ 1⟩ _ _ _ (offered _ _ _ _ _ (by decide) rfl rfl)
      (feeds _ _ _ (by decide) rfl rfl)
  exact ⟨cx, fillings, _, _, elements_eq, first_eq, second_eq⟩

end DalvikFacts
