import DalvikFacts.Proofs.Method.Branches

/-!
# Allocated objects

Every row about the assignment of an object names the instruction that assigns it, so the object
that a `new-array` allocates can be told from its one row.
-/

namespace DalvikFacts

namespace MethodContext

variable {α β : Type} {cx : MethodContext} {here : LocatedInstr} {action : MethodEmit α}

/-- The rows that an action writes about the assignment of objects name an instruction. -/
def Assigns (cx : MethodContext) (here : LocatedInstr) (action : MethodEmit α) : Prop :=
  ∀ state, ∀ row ∈ rowsOf .assignHeapAllocation (action.run state).events,
    row.head? = some (cx.assignInsn here.index)

namespace Assigns

theorem of_footprint {parts : List MethodPart} {relations : List Relation}
    (footprint : Footprint parts relations action)
    (absent : .assignHeapAllocation ∉ relations) : cx.Assigns here action := by
  intro state row member
  rw [(footprint.within state).rowsOf_eq_nil absent] at member
  cases member

theorem bind {next : α → MethodEmit β} (first : cx.Assigns here action)
    (rest : ∀ value, cx.Assigns here (next value)) : cx.Assigns here (action >>= next) := by
  intro state row member
  rw [Emit.run_bind, rowsOf_append] at member
  rcases List.mem_append.1 member with early | late
  · exact first state row early
  · exact rest _ _ row late

theorem row {relation : Relation} {columns : List String}
    (other : relation ≠ .assignHeapAllocation) :
    cx.Assigns here (Emit.row relation columns) := by
  have single : Footprint [] [relation] (Emit.row relation columns) :=
    .row (List.mem_singleton_self _)
  exact of_footprint single (by simp [other.symm])

theorem use (reg : Reg) : cx.Assigns here (cx.use reg) := by
  have declared : Footprint [.declared] [.varDeclaringMethod] (cx.use reg) :=
    footprint_use cx (by simp) (by simp) reg
  exact of_footprint declared (by simp)

theorem writeConstant (dst : Reg) (heap : String) :
    cx.Assigns here (cx.writeConstant here dst heap) := by
  have object : ∀ var, cx.Assigns here (cx.writeObject here heap var) := by
    intro var state row member
    rw [List.mem_singleton.1 member]
    rfl
  exact (use dst).bind object

theorem writeMethodType (dst : Reg) (proto : Proto) :
    cx.Assigns here (cx.writeMethodType here dst proto) := by
  have listed : ∀ key texts, Footprint [] [.methodTypeConstantParam]
      (writePositioned .methodTypeConstantParam key texts : MethodEmit Unit) :=
    fun key texts => footprint_writePositioned _ key texts (by simp)
  exact (of_footprint (listed _ _) (by simp)).bind fun _ =>
    (row (by simp)).bind fun _ => writeConstant dst _

end Assigns

theorem rowsOf_allocate (cx : MethodContext) (here : LocatedInstr) (type var : String)
    (isEmpty : Bool) (state : MethodState) :
    rowsOf .assignHeapAllocation ((cx.allocate here type var isEmpty).run state).events =
      [[cx.assignInsn here.index, toString here.index,
        ((cx.allocate here type var isEmpty).run state).value, var, cx.id,
        Identifier.lineText (cx.line? here)]] := by
  cases isEmpty <;> rfl

namespace Assigns

theorem allocate (type var : String) (isEmpty : Bool) :
    cx.Assigns here (cx.allocate here type var isEmpty) := by
  intro state row member
  rw [rowsOf_allocate, List.mem_singleton] at member
  rw [member]
  rfl

theorem writeNewArray (dst size : Reg) (type : Descriptor) :
    cx.Assigns here (cx.writeNewArray here dst size type) := by
  have typed : Footprint [] [.arrayType, .componentType] (writeArrayType type) :=
    footprint_writeArrayType type (List.Subset.refl _)
  have silent : ∀ change : MethodState → MethodState,
      cx.Assigns here (modify change : MethodEmit Unit) := by
    intro change state row member
    cases member
  have looked : cx.Assigns here (get : MethodEmit MethodState) := by
    intro state row member
    cases member
  exact (of_footprint typed (by simp)).bind fun _ => looked.bind fun _ => (silent _).bind fun _ =>
    (use dst).bind fun _ => (allocate _ _ _).bind fun _ => silent _

theorem writeResult (dst : Reg) (producer : Producer) :
    cx.Assigns here (cx.writeResult here dst producer) := by
  have dropped : cx.Assigns here (modify (·.withCarry (·.dropResult)) : MethodEmit Unit) := by
    intro state row member
    cases member
  have filled : ∀ array heap elements, Footprint [.declared]
      [.varDeclaringMethod, .arrayInitialValueFromLocal]
      (cx.writeFilledElements here array heap elements) :=
    fun array heap elements =>
      footprint_writeFilledElements cx here array heap elements (by simp) (List.Subset.refl _)
  refine dropped.bind fun _ => (use dst).bind fun var => ?_
  cases producer with
  | invocation insn => exact row (by simp)
  | filledArray type elements =>
    exact (allocate _ _ _).bind fun heap => of_footprint (filled _ _ _) (by simp)

end Assigns

/-- The rows of an instruction about the assignment of objects name that instruction. -/
theorem Planned.assigns {result : Option PendingResult} {action : MethodEmit Unit}
    (planned : cx.Planned here result action) : cx.Assigns here action := by
  by_cases writes : .assignHeapAllocation ∈ here.instr.relations
  · unfold Planned at planned
    generalize here.instr = instr at planned writes
    cases instr with
    | moveResult =>
      obtain ⟨pending, -, -, rfl⟩ := planned
      exact .writeResult _ pending.producer
    | constString =>
      obtain ⟨text, -, rfl⟩ := planned
      have constant : Footprint [] [.stringRaw, .stringConstant]
          (Emit.stringConstant text : MethodEmit String) :=
        footprint_stringConstant text (List.Subset.refl _)
      exact (Assigns.of_footprint constant (by simp)).bind fun heap => .writeConstant _ heap
    | constClass =>
      obtain ⟨type, -, rfl⟩ := planned
      exact (Assigns.row (by simp)).bind fun _ => .writeConstant _ _
    | newInstance =>
      obtain ⟨type, -, rfl⟩ := planned
      exact (Assigns.use _).bind fun _ => (Assigns.allocate _ _ _).bind fun _ =>
        .of_footprint (.pure () : Footprint [] [] _) (by simp)
    | newArray =>
      obtain ⟨type, -, rfl⟩ := planned
      exact .writeNewArray _ _ type
    | constMethodHandle =>
      rcases planned with ⟨sig, rfl⟩ | ⟨sig, rfl⟩
      · exact (Assigns.row (by simp)).bind fun _ => .writeConstant _ _
      · exact (Assigns.of_footprint (.notice cx rfl : Footprint [] [] _) (by simp)).bind fun _ =>
          .writeConstant _ _
    | constMethodType =>
      obtain ⟨proto, -, rfl⟩ := planned
      exact .writeMethodType _ proto
    | _ => simp [Instr.relations, callRelations] at writes
  · exact .of_footprint planned.footprint writes

theorem value_allocate (cx : MethodContext) (here : LocatedInstr) (type var : String)
    (isEmpty : Bool) (state : MethodState) :
    ((cx.allocate here type var isEmpty).run state).value =
      Identifier.allocation cx.id type (state.counters.peek type) := by
  unfold allocate nextNumber
  rw [Emit.run_bind, Emit.run_modifyGet]
  cases isEmpty with
  | false => rfl
  | true => rfl

/-- A `new-array` allocates one object, and keeps it to be filled. -/
theorem newArray_writeNewArray (cx : MethodContext) (here : LocatedInstr) (dst size : Reg)
    (type : Descriptor) (state : MethodState) :
    ∃ number,
      let heap := Identifier.allocation cx.id type.sourceName number
      ((cx.writeNewArray here dst size type).run state).state.carry.newArray =
        some ⟨here.index, heap⟩ ∧
      rowsOf .assignHeapAllocation ((cx.writeNewArray here dst size type).run state).events =
        [[cx.assignInsn here.index, toString here.index, heap, cx.variableOf dst, cx.id,
          Identifier.lineText (cx.line? here)]] := by
  let typed := ((writeArrayType type : MethodEmit Unit).run state).state
  let isEmpty := typed.carry.zeroSize here.index size
  let declared := (cx.use dst).run (typed.withCarry (·.dropZeroed))
  let allocated := (cx.allocate here type.sourceName declared.value isEmpty).run declared.state
  have run_eq : (cx.writeNewArray here dst size type).run state =
      ⟨(), allocated.state.withCarry (·.setNewArray ⟨here.index, allocated.value⟩),
        ((writeArrayType type : MethodEmit Unit).run state).events ++
          (declared.events ++ (allocated.events ++ []))⟩ := by
    unfold writeNewArray
    simp only [Emit.run_bind, Emit.run_get, Emit.run_modify, List.nil_append]
    rfl
  have heap_eq : allocated.value = Identifier.allocation cx.id type.sourceName
      (declared.state.counters.peek type.sourceName) := value_allocate ..
  have typed_nil : rowsOf .assignHeapAllocation
      ((writeArrayType type : MethodEmit Unit).run state).events = [] := by
    have quiet : Footprint [] [.arrayType, .componentType] (writeArrayType type) :=
      footprint_writeArrayType type (List.Subset.refl _)
    exact (quiet.within state).rowsOf_eq_nil (by simp)
  have declared_nil : rowsOf .assignHeapAllocation declared.events = [] := by
    have quiet : Footprint [.declared] [.varDeclaringMethod] (cx.use dst) :=
      footprint_use cx (by simp) (by simp) dst
    exact (quiet.within _).rowsOf_eq_nil (by simp)
  refine ⟨declared.state.counters.peek type.sourceName, ?_⟩
  rw [← heap_eq, run_eq]
  refine ⟨rfl, ?_⟩
  rw [rowsOf_append, rowsOf_append, List.append_nil, typed_nil, declared_nil, List.nil_append,
    List.nil_append]
  exact cx.rowsOf_allocate here type.sourceName declared.value isEmpty declared.state

/-- The rows of a run about the assignment of objects name its instructions. -/
theorem Decodes.assigns {instrs : List LocatedInstr} {state final : MethodState}
    {events : List Event} (run : cx.Decodes instrs state events final) {row : List String}
    (member : row ∈ rowsOf .assignHeapAllocation events) :
    ∃ here ∈ instrs, row.head? = some (cx.assignInsn here.index) := by
  induction run with
  | nil => cases member
  | @cons here rest state final events action planned later induction =>
    rw [rowsOf_append] at member
    rcases List.mem_append.1 member with first | others
    · exact ⟨here, List.mem_cons_self, planned.assigns _ row first⟩
    · obtain ⟨next, next_mem, head_eq⟩ := induction others
      exact ⟨next, List.mem_cons_of_mem _ next_mem, head_eq⟩

/-- A run has no row about the assignment of an object by an instruction outside. -/
theorem Decodes.filter_assigns_eq_nil {instrs : List LocatedInstr} {state final : MethodState}
    {events : List Event} (run : cx.Decodes instrs state events final) {index : Nat}
    (outside : ∀ here ∈ instrs, here.index ≠ index) :
    (rowsOf .assignHeapAllocation events).filter (·.head? == some (cx.assignInsn index)) = [] := by
  rw [List.filter_eq_nil_iff]
  intro row member own
  obtain ⟨here, here_mem, head_eq⟩ := run.assigns member
  rw [beq_iff_eq, head_eq, Option.some_inj] at own
  exact outside here here_mem (Identifier.instruction_inj.1 own)

theorem Phases.rowsOf_assigned {code : CodeItem} {events : List Event}
    (phases : cx.Phases code events) :
    rowsOf .assignHeapAllocation events = rowsOf .assignHeapAllocation phases.decoded := by
  have handled_nil : rowsOf .assignHeapAllocation (cx.handlerEvents code phases.final) = [] :=
    (cx.within_handlerEvents code phases.final).rowsOf_eq_nil (by simp [handlerRelations])
  rw [phases.rowsOf_early (by simp [headerRelations]) (by simp [lateRelations, edgeRelations]),
    handled_nil, List.append_nil]

end MethodContext

end DalvikFacts
