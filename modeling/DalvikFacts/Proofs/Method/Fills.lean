import DalvikFacts.Proofs.Method.Allocations
import DalvikFacts.Proofs.Method.Payloads

/-!
# Rows of array constants

A `fill-array-data` takes the array that was allocated last and waits for the payload at its target.
The payload that stands there behind it gives the array its elements.  An array is taken once: the
next `fill-array-data` needs another one.
-/

namespace DalvikFacts

open Pending

/-- The elements of an array, as a payload lists them, with their width in bytes. -/
structure ElementTable where
  width : Nat
  values : List Int
  deriving DecidableEq

/-- An instruction read as a payload of arrays. -/
def Instr.elementTable? : Instr → Option ElementTable
  | arrayPayload width values => some ⟨width, values⟩
  | _ => none

/-- The rows of the elements of an array in a variable. -/
def ArrayFill.rows (fill : ArrayFill) (method var : String) (values : List Int) :
    List (List String) :=
  values.zipIdx.map fun (value, position) =>
    [Identifier.instruction method MethodContext.assignKind fill.index, toString fill.index, var,
      toString position, toString value, fill.heap, method]

/-- The rows of the elements of a payload; there are none when their width is no type's. -/
def ElementTable.rows (table : ElementTable) (method var : String) (fill : ArrayFill) :
    List (List String) :=
  match MethodContext.elementType? table.width with
  | none => []
  | some _ => fill.rows method var table.values

theorem ElementTable.rows_eq {table : ElementTable} (width_mem : table.width ∈ [1, 2, 4, 8])
    (method var : String) (fill : ArrayFill) :
    table.rows method var fill = fill.rows method var table.values := by
  obtain ⟨width, values⟩ := table
  have supported : width = 1 ∨ width = 2 ∨ width = 4 ∨ width = 8 := by simpa using width_mem
  rcases supported with rfl | rfl | rfl | rfl <;> rfl

namespace LocatedInstr

/-- The address at which a `fill-array-data` expects its payload. -/
def fillTarget? (here : LocatedInstr) : Option Address :=
  match here.instr with
  | .fillArrayData _ offset => Address.offset? here.address offset
  | _ => none

/-- What an instruction does to the table of arrays to be filled, given the array allocated last. -/
def fillOperation? (here : LocatedInstr) (newArray : Option NewArray) :
    Option (Operation ElementTable ArrayFill) :=
  match here.instr with
  | .arrayPayload width values => some (.take here.address ⟨width, values⟩)
  | .fillArrayData array offset =>
    newArray.bind fun newArray => (Address.offset? here.address offset).map
      (.register · ⟨array, here.index, newArray.heap⟩)
  | _ => none

end LocatedInstr

/-- The elements that a `fill-array-data` gets from the payload behind it. -/
def CodeItem.elementsOf? (code : CodeItem) (here : LocatedInstr) : Option ElementTable :=
  here.fillTarget?.bind (code.readBehind? Instr.elementTable? here.index)

theorem Instr.size_ne_of_elementTable? {instr : Instr} {table : ElementTable}
    (table_eq : instr.elementTable? = some table) : instr.size ≠ 0 := by
  unfold elementTable? at table_eq
  split at table_eq
  · simp [size]
  · cases table_eq

/-- Whether an instruction allocates an array or takes the one allocated last. -/
def Instr.handlesArray : Instr → Bool
  | newArray .. | fillArrayData .. => true
  | _ => false

theorem Instr.newArray_notMem_parts {instr : Instr} (untouched : instr.handlesArray = false) :
    .newArray ∉ instr.parts := by
  cases instr with
  | newArray | fillArrayData => cases untouched
  | _ => simp [parts]

/-- The array of an instruction is still the one allocated last at a later instruction: none in
between allocates or takes an array. -/
structure CodeItem.KeepsArray (code : CodeItem) (maker here : LocatedInstr) : Prop where
  located : maker ∈ code.located
  behind : maker.index < here.index
  untouched : ∀ next ∈ code.located, maker.index < next.index → next.index < here.index →
    next.instr.handlesArray = false

theorem CodeItem.keepsArray_iff {code : CodeItem} {maker here : LocatedInstr}
    {early between late : List LocatedInstr}
    (located_eq : code.located = early ++ maker :: (between ++ here :: late)) :
    code.KeepsArray maker here ↔ ∀ next ∈ between, next.instr.handlesArray = false := by
  have maker_mem : maker ∈ code.located := by simp [located_eq]
  have behind : maker.index < here.index := by
    have sorted := code.pairwise_located
    rw [located_eq] at sorted
    obtain ⟨-, rest_sorted, -⟩ := List.pairwise_append.1 sorted
    exact (List.pairwise_cons.1 rest_sorted).1 here (by simp)
  constructor
  · intro keeps next member
    have next_mem : next ∈ code.located := by simp [located_eq, member]
    obtain ⟨after_maker, before_here⟩ := (mem_between_iff located_eq next_mem).1 member
    exact keeps.untouched next next_mem after_maker before_here
  · intro untouched
    refine ⟨maker_mem, behind, fun next next_mem after_maker before_here => untouched next ?_⟩
    exact (mem_between_iff located_eq next_mem).2 ⟨after_maker, before_here⟩

theorem forall_or_exists_last {α : Type} (chosen : α → Bool) (items : List α) :
    (∀ item ∈ items, chosen item = false) ∨
      ∃ front last back, items = front ++ last :: back ∧ chosen last = true ∧
        ∀ item ∈ back, chosen item = false := by
  induction items with
  | nil => exact .inl fun _ member => nomatch member
  | cons item rest induction =>
    rcases induction with none_chosen | ⟨front, last, back, rfl, last_chosen, back_unchosen⟩
    · cases item_eq : chosen item with
      | true => exact .inr ⟨[], item, rest, rfl, item_eq, none_chosen⟩
      | false => exact .inl (List.forall_mem_cons.2 ⟨item_eq, none_chosen⟩)
    · exact .inr ⟨item :: front, last, back, rfl, last_chosen, back_unchosen⟩

/-- How arrays wait for their elements, given the array allocated last before each instruction. -/
def fillDelivery (newArray : Nat → Option NewArray) : Delivery ElementTable ArrayFill where
  operation? here := here.fillOperation? (newArray here.index)
  read := Instr.elementTable?
  index := ArrayFill.index
  takes here address := by
    unfold LocatedInstr.fillOperation? Instr.elementTable?
    cases here.instr with
    | arrayPayload width values => simp [Operation.takerOf?]
    | fillArrayData array offset =>
      cases newArray here.index <;> cases Address.offset? here.address offset <;>
        simp [Operation.takerOf?]
    | _ => simp
  index_eq here entry entry_eq := by
    obtain ⟨operation, operation_eq, entry_eq⟩ := Option.bind_eq_some_iff.1 entry_eq
    unfold LocatedInstr.fillOperation? at operation_eq
    split at operation_eq
    next => cases operation_eq; cases entry_eq
    next =>
      obtain ⟨taken, -, operation_eq⟩ := Option.bind_eq_some_iff.1 operation_eq
      obtain ⟨target, -, rfl⟩ := Option.map_eq_some_iff.1 operation_eq
      cases entry_eq
      rfl
    next => cases operation_eq

namespace MethodContext

variable {cx : MethodContext} {here : LocatedInstr}

/-- The rows that a payload writes for one of its arrays. -/
def fillRows (cx : MethodContext) (given : ElementTable × ArrayFill) : List (List String) :=
  given.1.rows cx.id (cx.variableOf given.2.array) given.2

/-! ## Steps -/

theorem fills_writeFillArray (array : Reg) (offset : Int) (state : MethodState) :
    ((cx.writeFillArray here array offset).run state).state.fills =
      match state.carry.newArray, Address.offset? here.address offset with
      | some newArray, some target =>
        state.fills.register target ⟨array, here.index, newArray.heap⟩
      | _, _ => state.fills := by
  unfold writeFillArray
  rw [Emit.run_bind, Emit.run_get]
  cases state.carry.newArray with
  | none => rfl
  | some newArray =>
    dsimp only
    cases Address.offset? here.address offset with
    | none => split <;> rfl
    | some target => split <;> rfl

theorem newArray_writeFillArray (cx : MethodContext) (here : LocatedInstr) (array : Reg)
    (offset : Int) (state : MethodState) :
    ((cx.writeFillArray here array offset).run state).state.carry.newArray = none := by
  unfold writeFillArray
  rw [Emit.run_bind, Emit.run_get]
  cases slot_eq : state.carry.newArray with
  | none => exact slot_eq
  | some newArray =>
    dsimp only
    cases Address.offset? here.address offset with
    | none => split <;> rfl
    | some target => split <;> rfl

theorem rowsOf_writeFill (type : String) (values : List Int) (fill : ArrayFill)
    (state : MethodState) :
    rowsOf .arrayInitialValueFromConst ((cx.writeFill type values fill).run state).events =
      fill.rows cx.id (cx.variableOf fill.array) values := by
  have declared : Footprint [.declared] [.varDeclaringMethod] (cx.use fill.array) :=
    footprint_use cx (by simp) (by simp) fill.array
  have elements : ∀ (entries : List (Int × Nat)) (array : String) (state : MethodState),
      rowsOf .arrayInitialValueFromConst
          ((entries.forM fun (value, position) => (do
            Emit.row .numConstantRaw [toString value, type]
            Emit.row .arrayInitialValueFromConst
              [cx.assignInsn fill.index, toString fill.index, array, toString position,
                toString value, fill.heap, cx.id] : MethodEmit Unit)).run state).events =
        entries.map fun (value, position) =>
          [cx.assignInsn fill.index, toString fill.index, array, toString position,
            toString value, fill.heap, cx.id] := by
    intro entries array state
    induction entries generalizing state with
    | nil => rfl
    | cons entry rest induction =>
      rw [List.map_cons, ← induction state]
      rfl
  unfold writeFill
  rw [Emit.run_bind, rowsOf_append, (declared.within state).rowsOf_eq_nil (by simp),
    List.nil_append]
  exact elements _ _ _

theorem rowsOf_fills (type : String) (values : List Int) (fills : List ArrayFill)
    (state : MethodState) :
    rowsOf .arrayInitialValueFromConst ((fills.forM (cx.writeFill type values)).run state).events =
      fills.flatMap fun fill => fill.rows cx.id (cx.variableOf fill.array) values := by
  induction fills generalizing state with
  | nil => rfl
  | cons fill rest induction =>
    rw [List.flatMap_cons, ← rowsOf_writeFill type values fill state,
      ← induction ((cx.writeFill type values fill).run state).state, ← rowsOf_append]
    rfl

/-- A payload of arrays gives its elements to all arrays that wait for it. -/
theorem fills_writeArrayPayload (cx : MethodContext) (here : LocatedInstr) (width : Nat)
    (values : List Int) (state : MethodState) :
    ((cx.writeArrayPayload here width values).run state).state.fills =
        state.fills.release here.address ∧
      rowsOf .arrayInitialValueFromConst
          ((cx.writeArrayPayload here width values).run state).events =
        (state.fills.waitingAt here.address).flatMap fun fill =>
          cx.fillRows (⟨width, values⟩, fill) := by
  have kept : ∀ type (fills : List ArrayFill) (later : MethodState),
      ((fills.forM (cx.writeFill type values)).run later).state.fills = later.fills := by
    intro type fills later
    have declared : Footprint [.declared]
        [.varDeclaringMethod, .numConstantRaw, .arrayInitialValueFromConst]
        (fills.forM (cx.writeFill type values)) :=
      .forM fun fill => footprint_writeFill cx type values fill (by simp) (List.Subset.refl _)
    exact declared.frame later .fills (by simp)
  unfold writeArrayPayload
  simp only [Emit.run_bind, Emit.run_get, Emit.run_modify, List.nil_append]
  split
  next none_wait =>
    rw [List.isEmpty_iff.1 none_wait]
    exact ⟨rfl, rfl⟩
  next =>
    cases type_eq : elementType? width with
    | none => simp [fillRows, ElementTable.rows, type_eq, MethodContext.notice, Emit.notice, rowsOf]
    | some type =>
      refine ⟨kept type _ _, ?_⟩
      rw [rowsOf_fills]
      simp only [fillRows, ElementTable.rows, type_eq]

/-- What an instruction does to the arrays that wait, and the rows of elements that it writes. -/
theorem Planned.fills {result : Option PendingResult} {action : MethodEmit Unit}
    (planned : cx.Planned here result action) {waiting : List (Address × ArrayFill)}
    {state : MethodState}
    (holds : state.fills.Holds waiting) :
    (action.run state).state.fills.Holds
        (remaining waiting (here.fillOperation? state.carry.newArray).toList) ∧
      rowsOf .arrayInitialValueFromConst (action.run state).events =
        (handOut waiting
          (here.fillOperation? state.carry.newArray).toList).flatMap cx.fillRows := by
  have footprint := planned.footprint
  unfold Planned at planned
  unfold LocatedInstr.fillOperation?
  cases instr_eq : here.instr with
  | arrayPayload width values =>
    simp only [instr_eq] at planned ⊢
    subst planned
    obtain ⟨fills_eq, rows_eq⟩ := cx.fills_writeArrayPayload here width values state
    rw [fills_eq, rows_eq, holds]
    refine ⟨holds.release here.address, ?_⟩
    simp [handOut, List.flatMap_map]
  | fillArrayData array offset =>
    have rows_nil : rowsOf .arrayInitialValueFromConst (action.run state).events = [] :=
      (footprint.within state).rowsOf_eq_nil (by simp [instr_eq, Instr.relations])
    simp only [instr_eq] at planned ⊢
    subst planned
    rw [fills_writeFillArray, rows_nil]
    cases state.carry.newArray with
    | none => exact ⟨holds, rfl⟩
    | some newArray =>
      cases Address.offset? here.address offset with
      | none => exact ⟨holds, rfl⟩
      | some target => exact ⟨holds.register target _, rfl⟩
  | _ =>
    have fills_eq : (action.run state).state.fills = state.fills :=
      footprint.frame state .fills (by simp [instr_eq, Instr.parts])
    have rows_nil : rowsOf .arrayInitialValueFromConst (action.run state).events = [] :=
      (footprint.within state).rowsOf_eq_nil
        (by simp [instr_eq, Instr.relations, callRelations, resultRelations])
    rw [fills_eq, rows_nil]
    exact ⟨holds, rfl⟩

/-! ## Runs -/

/-- The array allocated last before an instruction. -/
def lastArray (before : Nat → MethodState) (index : Nat) : Option NewArray :=
  (before index).carry.newArray

namespace Passes

variable {before : Nat → MethodState} {instrs : List LocatedInstr} {state final : MethodState}
  {events : List Event}

/-- What a run through instructions does to the arrays that wait, and the rows of elements that it
writes. -/
theorem fills (run : cx.Passes before instrs state events final)
    {waiting : List (Address × ArrayFill)} (holds : state.fills.Holds waiting) :
    let operations := (fillDelivery (lastArray before)).operations instrs
    final.fills.Holds (remaining waiting operations) ∧
      rowsOf .arrayInitialValueFromConst events =
        (handOut waiting operations).flatMap cx.fillRows := by
  induction run generalizing waiting with
  | nil => exact ⟨holds, rfl⟩
  | @cons here rest state final events action reached planned later induction =>
    have reached_holds : (before here.index).fills.Holds waiting := by
      rw [reached]
      exact holds
    obtain ⟨step_holds, step_rows⟩ := planned.fills reached_holds
    obtain ⟨rest_holds, rest_rows⟩ := induction step_holds
    dsimp only
    rw [Delivery.operations_cons, remaining_append, handOut_append, List.flatMap_append,
      rowsOf_append]
    refine ⟨rest_holds, ?_⟩
    rw [step_rows, rest_rows]
    rfl

theorem lastArray_eq {early late : List LocatedInstr} {here : LocatedInstr}
    (run : cx.Passes before (early ++ here :: late) state events final)
    (untouched : ∀ next ∈ early, next.instr.handlesArray = false) :
    lastArray before here.index = state.carry.newArray := by
  obtain ⟨action, arrived, first, rest, -, early_run, reached, -, -⟩ := run.isolate
  have unchanged : arrived.carry.newArray = state.carry.newArray :=
    early_run.decodes.frame .newArray (by simp) fun next member =>
      Instr.newArray_notMem_parts (untouched next member)
  rw [← unchanged, lastArray, reached]
  rfl

/-- Behind a `new-array`, its array is the one allocated last, and its one row tells which object
that is. -/
theorem lastArray_of_newArray {early between late : List LocatedInstr} {maker here : LocatedInstr}
    (run : cx.Passes before (early ++ maker :: (between ++ here :: late)) state events final)
    (distinct :
      ((early ++ maker :: (between ++ here :: late)).map LocatedInstr.index).Nodup)
    {dst size : Reg} {type : Nat} (maker_eq : maker.instr = .newArray dst size type)
    (untouched : ∀ next ∈ between, next.instr.handlesArray = false) :
    ∃ found number, cx.container.typeAt type = .ok found ∧
      let heap := Identifier.allocation cx.id found.sourceName number
      lastArray before here.index = some ⟨maker.index, heap⟩ ∧
      (rowsOf .assignHeapAllocation events).filter
          (·.head? == some (cx.assignInsn maker.index)) =
        [[cx.assignInsn maker.index, toString maker.index, heap, cx.variableOf dst, cx.id,
          Identifier.lineText (cx.line? maker)]] := by
  rw [List.map_append, List.map_cons, List.nodup_append, List.nodup_cons] at distinct
  obtain ⟨-, ⟨not_behind, -⟩, not_ahead⟩ := distinct
  obtain ⟨action, arrived, first, rest, planned, early_run, -, later, rfl⟩ := run.isolate
  unfold Planned at planned
  simp only [maker_eq] at planned
  obtain ⟨found, found_eq, rfl⟩ := planned
  obtain ⟨number, slot_eq, rows_eq⟩ :=
    cx.newArray_writeNewArray maker dst size found (before maker.index)
  refine ⟨found, number, found_eq, (later.lastArray_eq untouched).trans slot_eq, ?_⟩
  have first_nil : (rowsOf .assignHeapAllocation first).filter
      (·.head? == some (cx.assignInsn maker.index)) = [] := by
    refine early_run.decodes.filter_assigns_eq_nil fun next member same => ?_
    exact not_ahead _ (List.mem_map_of_mem member) maker.index List.mem_cons_self same
  have rest_nil : (rowsOf .assignHeapAllocation rest).filter
      (·.head? == some (cx.assignInsn maker.index)) = [] := by
    refine later.decodes.filter_assigns_eq_nil fun next member same => ?_
    exact not_behind (same ▸ List.mem_map_of_mem member)
  rw [rowsOf_append, rowsOf_append, List.filter_append, List.filter_append, first_nil, rest_nil,
    rows_eq]
  simp

theorem lastArray_eq_none {early late : List LocatedInstr} {here : LocatedInstr}
    (run : cx.Passes before (early ++ here :: late) state events final)
    (start : state.carry.newArray = none)
    (touched : ∀ front maker between dst size type, early = front ++ maker :: between →
      maker.instr = .newArray dst size type → ∃ next ∈ between, next.instr.handlesArray = true) :
    lastArray before here.index = none := by
  rcases forall_or_exists_last (fun next : LocatedInstr => next.instr.handlesArray) early with
    untouched | ⟨front, last, between, early_eq, handles, untouched⟩
  · exact (run.lastArray_eq untouched).trans start
  · rw [early_eq, List.append_assoc, List.cons_append] at run
    obtain ⟨action, arrived, first, rest, planned, -, -, later, -⟩ := run.isolate
    have taken : (action.run (before last.index)).state.carry.newArray = none := by
      unfold Planned at planned
      cases instr_eq : last.instr with
      | newArray dst size type =>
        obtain ⟨next, member, next_handles⟩ := touched _ _ _ _ _ _ early_eq instr_eq
        rw [untouched next member] at next_handles
        cases next_handles
      | fillArrayData array offset =>
        simp only [instr_eq] at planned
        subst planned
        exact cx.newArray_writeFillArray last array offset _
      | _ => simp [instr_eq, Instr.handlesArray] at handles
    exact (later.lastArray_eq untouched).trans taken

end Passes

/-! ## Rows -/

theorem head?_of_mem_fillRows {given : ElementTable × ArrayFill} {row : List String}
    (member : row ∈ cx.fillRows given) (index : Nat) :
    (row.head? == some (cx.assignInsn index)) = (given.2.index == index) := by
  unfold fillRows ElementTable.rows at member
  split at member
  next => cases member
  next =>
    obtain ⟨⟨value, position⟩, -, rfl⟩ := List.mem_map.1 member
    rw [Bool.eq_iff_iff, beq_iff_eq, beq_iff_eq, List.head?_cons, Option.some_inj, assignInsn, insn,
      Identifier.instruction_inj]

theorem fate?_fillDelivery {code : CodeItem} (newArray : Nat → Option NewArray) {array : Reg}
    {offset : Int} (instr_eq : here.instr = .fillArrayData array offset) :
    (fillDelivery newArray).fate? code here =
      (newArray here.index).bind fun newArray => (Address.offset? here.address offset).map
        fun target => (code.readBehind? Instr.elementTable? here.index target,
          ⟨array, here.index, newArray.heap⟩) := by
  have operation_eq : (fillDelivery newArray).operation? here =
      here.fillOperation? (newArray here.index) := rfl
  rw [Delivery.fate?, operation_eq, LocatedInstr.fillOperation?, instr_eq]
  dsimp only
  cases newArray here.index with
  | none => rfl
  | some newArray =>
    simp only [Option.bind_some]
    cases Address.offset? here.address offset <;> rfl

namespace Phases

variable {code : CodeItem} {events : List Event}

theorem rowsOf_fills (phases : cx.Phases code events) {before : Nat → MethodState}
    (run : cx.Passes before code.located cx.entryState phases.decoded phases.final) :
    rowsOf .arrayInitialValueFromConst events =
      (handOut [] ((fillDelivery (lastArray before)).operations code.located)).flatMap
        cx.fillRows := by
  have entry_eq : cx.entryState.fills = .empty := cx.entryState_same .fills (by simp)
  have holds : cx.entryState.fills.Holds [] := entry_eq ▸ holds_empty
  have handled_nil : rowsOf .arrayInitialValueFromConst (cx.handlerEvents code phases.final) = [] :=
    (cx.within_handlerEvents code phases.final).rowsOf_eq_nil (by simp [handlerRelations])
  rw [phases.rowsOf_early (by simp [headerRelations]) (by simp [lateRelations, edgeRelations]),
    handled_nil, List.append_nil]
  exact (run.fills holds).2

/-- The rows of a `fill-array-data` are those of the elements that it gets, in the array allocated
last before it. -/
theorem filter_rowsOf_fills (phases : cx.Phases code events) {before : Nat → MethodState}
    (run : cx.Passes before code.located cx.entryState phases.decoded phases.final)
    (member : here ∈ code.located) {array : Reg} {offset : Int}
    (instr_eq : here.instr = .fillArrayData array offset) :
    (rowsOf .arrayInitialValueFromConst events).filter
        (·.head? == some (cx.assignInsn here.index)) =
      match lastArray before here.index, code.elementsOf? here with
      | some newArray, some table =>
        table.rows cx.id (cx.variableOf array) ⟨array, here.index, newArray.heap⟩
      | _, _ => [] := by
  have own : (handOut [] ((fillDelivery (lastArray before)).operations code.located)).filter
      (·.2.index == here.index) = _ :=
    (fillDelivery (lastArray before)).filter_handOut code member
  rw [fate?_fillDelivery _ instr_eq] at own
  rw [phases.rowsOf_fills run, CodeItem.elementsOf?, LocatedInstr.fillTarget?, instr_eq]
  refine (filter_flatMap_eq fun given _ row row_mem =>
    head?_of_mem_fillRows row_mem here.index).trans ?_
  rw [own]
  dsimp only
  cases lastArray before here.index with
  | none => rfl
  | some newArray =>
    simp only [Option.bind_some]
    cases Address.offset? here.address offset with
    | none => rfl
    | some target =>
      simp only [Option.bind_some, Option.map_some]
      cases code.readBehind? Instr.elementTable? here.index target with
      | none => rfl
      | some table => simp [fillRows]

/-- When the array of a `new-array` is kept up to a `fill-array-data`, it gets the elements. -/
theorem rowsOf_fill_of_keepsArray (phases : cx.Phases code events) {maker : LocatedInstr}
    {array dst size : Reg} {offset : Int} {type : Nat} (here_mem : here ∈ code.located)
    (here_eq : here.instr = .fillArrayData array offset)
    (maker_eq : maker.instr = .newArray dst size type) (keeps : code.KeepsArray maker here) :
    ∃ found number, cx.container.typeAt type = .ok found ∧
      let heap := Identifier.allocation cx.id found.sourceName number
      (rowsOf .assignHeapAllocation events).filter
          (·.head? == some (cx.assignInsn maker.index)) =
        [[cx.assignInsn maker.index, toString maker.index, heap, cx.variableOf dst, cx.id,
          Identifier.lineText (cx.line? maker)]] ∧
      (rowsOf .arrayInitialValueFromConst events).filter
          (·.head? == some (cx.assignInsn here.index)) =
        (code.elementsOf? here).elim []
          (·.rows cx.id (cx.variableOf array) ⟨array, here.index, heap⟩) := by
  obtain ⟨before, run⟩ := phases.run.exists_passes code.located_index_nodup
  have rows_eq := phases.filter_rowsOf_fills run here_mem here_eq
  obtain ⟨early, between, late, located_eq⟩ :=
    code.exists_between keeps.located here_mem keeps.behind
  have untouched := (CodeItem.keepsArray_iff located_eq).1 keeps
  have distinct := code.located_index_nodup
  rw [located_eq] at run distinct
  obtain ⟨found, number, found_eq, last_eq, assign_eq⟩ :=
    run.lastArray_of_newArray distinct maker_eq untouched
  refine ⟨found, number, found_eq, ?_, ?_⟩
  · rw [phases.rowsOf_assigned]
    exact assign_eq
  · rw [rows_eq, last_eq]
    cases code.elementsOf? here <;> rfl

theorem rowsOf_fill_of_not_keepsArray (phases : cx.Phases code events) {array : Reg} {offset : Int}
    (here_mem : here ∈ code.located) (here_eq : here.instr = .fillArrayData array offset)
    (unkept : ∀ maker dst size type, maker.instr = .newArray dst size type →
      ¬ code.KeepsArray maker here) :
    (rowsOf .arrayInitialValueFromConst events).filter
      (·.head? == some (cx.assignInsn here.index)) = [] := by
  obtain ⟨before, run⟩ := phases.run.exists_passes code.located_index_nodup
  have rows_eq := phases.filter_rowsOf_fills run here_mem here_eq
  obtain ⟨early, late, located_eq⟩ := List.append_of_mem here_mem
  rw [located_eq] at run
  have none_left : lastArray before here.index = none := by
    refine run.lastArray_eq_none (cx.entryState_same .newArray (by simp)) ?_
    rintro front maker between dst size type rfl maker_eq
    rw [List.append_assoc, List.cons_append] at located_eq
    by_contra untouched
    refine unkept maker dst size type maker_eq ((CodeItem.keepsArray_iff located_eq).2 ?_)
    intro next member
    by_contra handles
    exact untouched ⟨next, member, by simpa using handles⟩
  rw [none_left] at rows_eq
  exact rows_eq

end Phases

end MethodContext

/-- The payload of arrays that is read behind a `fill-array-data` gives its elements to the array
allocated last before it: that of a `new-array` from which no instruction up to here has allocated
or taken an array, whatever their registers.  Without such an array no element is given. -/
theorem fill_rows {container : Container} {definition : MethodDef} {code : CodeItem}
    {cache : SignatureCache} {extracted : ExtractedMethod} (code_eq : definition.code = some code)
    (value_eq : ((definition.extract container).run cache).value = .ok extracted) :
    ∃ cx : MethodContext,
      ((MethodContext.create container definition).run cache).value = .ok cx ∧
      cx.id = extracted.id ∧
      let events := ((definition.extract container).run cache).events
      ∀ here ∈ code.located, ∀ array offset, here.instr = .fillArrayData array offset →
      ∀ payload, code.Reads Instr.elementTable? here.index payload →
        Address.offset? here.address offset = some payload.address →
      ∀ width values, payload.instr = .arrayPayload width values → width ∈ [1, 2, 4, 8] →
        let rows := (rowsOf .arrayInitialValueFromConst events).filter
          (·.head? == some (cx.assignInsn here.index))
        (∀ maker dst size type, maker.instr = .newArray dst size type →
          code.KeepsArray maker here →
            ∃ found number, container.typeAt type = .ok found ∧
              let heap := Identifier.allocation cx.id found.sourceName number
              (rowsOf .assignHeapAllocation events).filter
                  (·.head? == some (cx.assignInsn maker.index)) =
                [[cx.assignInsn maker.index, toString maker.index, heap, cx.variableOf dst, cx.id,
                  Identifier.lineText (cx.line? maker)]] ∧
              rows = values.zipIdx.map fun (value, position) =>
                [cx.assignInsn here.index, toString here.index, cx.variableOf array,
                  toString position, toString value, heap, cx.id]) ∧
        ((∀ maker dst size type, maker.instr = .newArray dst size type →
          ¬ code.KeepsArray maker here) → rows = []) := by
  obtain ⟨cx, phases, id_eq, create_eq⟩ := definition.exists_phases code_eq value_eq
  refine ⟨cx, create_eq, id_eq, ?_⟩
  intro events here here_mem array offset here_eq payload reads target_eq width values payload_eq
    width_mem rows
  have elements_eq : code.elementsOf? here = some ⟨width, values⟩ := by
    rw [CodeItem.elementsOf?, LocatedInstr.fillTarget?, here_eq]
    dsimp only
    rw [target_eq, Option.bind_some, CodeItem.readBehind?_eq_some_iff]
    exact ⟨payload, reads, rfl, by rw [payload_eq]; rfl⟩
  constructor
  · intro maker dst size type maker_eq keeps
    obtain ⟨found, number, found_eq, assign_eq, rows_eq⟩ :=
      phases.rowsOf_fill_of_keepsArray here_mem here_eq maker_eq keeps
    rw [(cx.create_outcome create_eq).1] at found_eq
    rw [elements_eq] at rows_eq
    refine ⟨found, number, found_eq, assign_eq, rows_eq.trans ?_⟩
    exact ElementTable.rows_eq width_mem _ _ _
  · exact phases.rowsOf_fill_of_not_keepsArray here_mem here_eq

/-- A container with two types of arrays. -/
def arrayContainer : Container :=
  { loneContainer with types := #[.array (.primitive .int), .array (.primitive .long)] }

/-- A body that allocates two arrays before it fills both from one payload. -/
def twins : CodeItem where
  registers := 3
  instructions :=
    [.const .sixteen ⟨2⟩ 1, .newArray ⟨0⟩ ⟨2⟩ 0, .newArray ⟨1⟩ ⟨2⟩ 1, .fillArrayData ⟨0⟩ 8,
      .fillArrayData ⟨1⟩ 5, .returnVoid, .nop, .arrayPayload 4 [7]]
  tries := []
  debugItems := []

def twinsMethod : MethodDef :=
  { loneMethod [] with code := some twins }

theorem exists_extract_twins :
    ∃ extracted, ((twinsMethod.extract arrayContainer).run .empty).value = .ok extracted :=
  MethodDef.exists_extract_sound rfl rfl (by decide)

theorem keepsArray_twins :
    twins.KeepsArray ⟨3, 4, .newArray ⟨1⟩ ⟨2⟩ 1⟩ ⟨4, 6, .fillArrayData ⟨0⟩ 8⟩ :=
  ⟨by decide, by decide, by decide⟩

theorem not_keepsArray_twins (maker : LocatedInstr) (dst size : Reg) (type : Nat)
    (maker_eq : maker.instr = .newArray dst size type) :
    ¬ twins.KeepsArray maker ⟨5, 9, .fillArrayData ⟨1⟩ 5⟩ := by
  intro keeps
  have not_ahead : ¬ maker.index < 4 := by
    intro ahead
    cases keeps.untouched ⟨4, 6, .fillArrayData ⟨0⟩ 8⟩ (by decide) ahead (by decide)
  have behind : maker.index < 5 := keeps.behind
  have index_eq : maker.index = 4 := by omega
  have maker_is : maker = ⟨4, 6, .fillArrayData ⟨0⟩ 8⟩ :=
    List.inj_on_of_nodup_map twins.located_index_nodup keeps.located (by decide) index_eq
  rw [maker_is] at maker_eq
  cases maker_eq

/-- The first array is filled as if it was the second one, and the second one is not filled. -/
theorem fill_misses_twins :
    ∃ (extracted : ExtractedMethod) (cx : MethodContext) (heap other line : String),
      ((twinsMethod.extract arrayContainer).run .empty).value = .ok extracted ∧
      cx.id = extracted.id ∧
      let events := ((twinsMethod.extract arrayContainer).run .empty).events
      let allocated (index : Nat) := (rowsOf .assignHeapAllocation events).filter
        (·.head? == some (cx.assignInsn index))
      let elements (index : Nat) := (rowsOf .arrayInitialValueFromConst events).filter
        (·.head? == some (cx.assignInsn index))
      allocated 2 = [[cx.assignInsn 2, toString 2, heap, cx.variableOf ⟨0⟩, cx.id, line]] ∧
      elements 4 = [[cx.assignInsn 4, toString 4, cx.variableOf ⟨0⟩, toString 0,
        toString (7 : Int), other, cx.id]] ∧
      heap ≠ other ∧ elements 5 = [] := by
  obtain ⟨extracted, value_eq⟩ := exists_extract_twins
  obtain ⟨cx, phases, id_eq, create_eq⟩ := twinsMethod.exists_phases rfl value_eq
  have container_eq : cx.container = arrayContainer := (cx.create_outcome create_eq).1
  let first : LocatedInstr := ⟨2, 2, .newArray ⟨0⟩ ⟨2⟩ 0⟩
  let second : LocatedInstr := ⟨3, 4, .newArray ⟨1⟩ ⟨2⟩ 1⟩
  let late : List LocatedInstr :=
    [⟨4, 6, .fillArrayData ⟨0⟩ 8⟩, ⟨5, 9, .fillArrayData ⟨1⟩ 5⟩, ⟨6, 12, .returnVoid⟩,
      ⟨7, 13, .nop⟩, ⟨8, 14, .arrayPayload 4 [7]⟩]
  have located_eq : twins.located =
      [⟨1, 0, .const .sixteen ⟨2⟩ 1⟩] ++ first :: ([] ++ second :: late) := rfl
  obtain ⟨before, run⟩ := phases.run.exists_passes twins.located_index_nodup
  have distinct := twins.located_index_nodup
  rw [located_eq] at run distinct
  obtain ⟨found, number, found_eq, -, first_rows⟩ :=
    run.lastArray_of_newArray distinct rfl fun next member => nomatch member
  obtain ⟨other, otherNumber, other_eq, -, served_rows⟩ :=
    phases.rowsOf_fill_of_keepsArray (by decide) rfl rfl keepsArray_twins
  have other_rows := phases.rowsOf_fill_of_not_keepsArray (by decide) rfl not_keepsArray_twins
  rw [container_eq] at found_eq other_eq
  cases found_eq
  cases other_eq
  refine ⟨extracted, cx, Identifier.allocation cx.id "int[]" number,
    Identifier.allocation cx.id "long[]" otherNumber, Identifier.lineText (cx.line? first),
    value_eq, id_eq, ?_, served_rows, ?_, other_rows⟩
  · rw [phases.rowsOf_assigned]
    exact first_rows
  · intro same
    have letters := congrArg String.toList same
    simp [Identifier.allocation, Identifier.instruction, Identifier.allocationKind] at letters

/-- The elements go to the object of the second array, and none are left for the other
instruction. -/
theorem fill_rows_twins :
    ∃ (cx : MethodContext) (number : Nat) (line : String),
      let events := ((twinsMethod.extract arrayContainer).run .empty).events
      let heap := Identifier.allocation cx.id "long[]" number
      let elements (index : Nat) := (rowsOf .arrayInitialValueFromConst events).filter
        (·.head? == some (cx.assignInsn index))
      (rowsOf .assignHeapAllocation events).filter (·.head? == some (cx.assignInsn 3)) =
        [[cx.assignInsn 3, toString 3, heap, cx.variableOf ⟨1⟩, cx.id, line]] ∧
      elements 4 = [[cx.assignInsn 4, toString 4, cx.variableOf ⟨0⟩, toString 0,
        toString (7 : Int), heap, cx.id]] ∧
      elements 5 = [] := by
  obtain ⟨extracted, value_eq⟩ := exists_extract_twins
  obtain ⟨cx, -, -, fills⟩ := fill_rows rfl value_eq
  have reads (index : Nat) (behind : index < 8) :
      twins.Reads Instr.elementTable? index ⟨8, 14, .arrayPayload 4 [7]⟩ :=
    CodeItem.reads_of_narrow (by decide) (fun _ _ => Instr.size_ne_of_elementTable?) (by decide)
      behind
  have served := fills ⟨4, 6, .fillArrayData ⟨0⟩ 8⟩ (by decide) _ _ rfl
    ⟨8, 14, .arrayPayload 4 [7]⟩ (reads 4 (by decide)) rfl _ _ rfl (by decide)
  have unserved := fills ⟨5, 9, .fillArrayData ⟨1⟩ 5⟩ (by decide) _ _ rfl
    ⟨8, 14, .arrayPayload 4 [7]⟩ (reads 5 (by decide)) rfl _ _ rfl (by decide)
  obtain ⟨found, number, found_eq, assign_eq, rows_eq⟩ := served.1 _ _ _ _ rfl keepsArray_twins
  cases found_eq
  exact ⟨cx, number, _, assign_eq, rows_eq, unserved.2 not_keepsArray_twins⟩

end DalvikFacts
