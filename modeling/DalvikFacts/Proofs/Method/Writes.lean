import DalvikFacts.Proofs.Method.Footprint

/-!
# Footprints of the instructions

The footprint of each action that carries out an instruction.  Most instructions only declare
variables and write rows of their own; the few that reach further are told apart by the parts of
the state in their footprints.
-/

namespace DalvikFacts.MethodContext

variable {parts : List MethodPart} {relations : List Relation} (cx : MethodContext)
  (here : LocatedInstr)

section Variables

variable (may_declare : .declared ∈ parts) (may_relate : .varDeclaringMethod ∈ relations)

include may_declare may_relate

theorem footprint_declare (var : String) : Footprint parts relations (cx.declare var) := by
  refine Footprint.get.bind fun state =>
    .ite (.bind (.modify ?_) fun _ => .row may_relate) (.pure ())
  intro state part absent
  cases part with
  | declared => exact absurd may_declare absent
  | _ => rfl

theorem footprint_use (reg : Reg) : Footprint parts relations (cx.use reg) :=
  (footprint_declare cx may_declare may_relate _).bind fun _ => .pure _

end Variables

section Numbers

variable (may_count : .counters ∈ parts)

include may_count

theorem footprint_nextNumber (kind : String) : Footprint parts relations (nextNumber kind) := by
  refine .modifyGet ?_
  intro state part absent
  cases part with
  | counters => exact absurd may_count absent
  | _ => rfl

theorem footprint_numberedInsn (kind : String) :
    Footprint parts relations (cx.numberedInsn kind) :=
  (footprint_nextNumber may_count kind).bind fun _ => .pure _

end Numbers

section Objects

theorem footprint_writeObject (heap var : String) (may_assign : .assignHeapAllocation ∈ relations) :
    Footprint parts relations (cx.writeObject here heap var) :=
  .row may_assign

theorem footprint_allocate (type var : String) (isEmpty : Bool) (may_count : .counters ∈ parts)
    (may_write : [.normalHeap, .assignHeapAllocation, .emptyArray] ⊆ relations) :
    Footprint parts relations (cx.allocate here type var isEmpty) := by
  refine (footprint_nextNumber may_count type).bind fun _ => .bind (.row (may_write ?_)) fun _ =>
    .bind (footprint_writeObject cx here _ _ (may_write ?_)) fun _ =>
      .ite (.bind (.row (may_write ?_)) fun _ => .pure _) (.pure _)
  all_goals simp

theorem footprint_stringConstant (text : String)
    (may_write : [.stringRaw, .stringConstant] ⊆ relations) :
    Footprint parts relations (Emit.stringConstant text) := by
  refine .bind (.row (may_write ?_)) fun _ => .bind (.row (may_write ?_)) fun _ => .pure _
  all_goals simp

end Objects

/-! ## Assignments -/

theorem footprint_writeStatementType (may_write : .statementType ∈ relations) :
    Footprint parts relations (cx.writeStatementType here) := by
  unfold writeStatementType
  split
  · exact .row may_write
  · exact .notice cx rfl

theorem footprint_writeMove (dst src : Reg) :
    Footprint [.declared] [.varDeclaringMethod, .assignLocal, .statementType]
      (cx.writeMove here dst src) :=
  (footprint_use cx (by simp) (by simp) src).bind fun _ =>
    (footprint_use cx (by simp) (by simp) dst).bind fun _ =>
      .bind (.row (by simp)) fun _ => footprint_writeStatementType cx here (by simp)

theorem footprint_writeNumber (dst : Reg) (value : Int) (may_declare : .declared ∈ parts) :
    Footprint parts [.varDeclaringMethod, .assignNumConstant, .statementType]
      (cx.writeNumber here dst value) :=
  (footprint_use cx may_declare (by simp) dst).bind fun _ =>
    .bind (.row (by simp)) fun _ => footprint_writeStatementType cx here (by simp)

theorem footprint_writeNarrowNumber (dst : Reg) (value : Int) :
    Footprint [.declared, .zeroed] [.varDeclaringMethod, .assignNumConstant, .statementType]
      (cx.writeNarrowNumber here dst value) := by
  refine .bind (.modify ?_) fun _ => footprint_writeNumber cx here dst value (by simp)
  intro state part absent
  have loaded : (state.carry.loadNarrow here.index dst value).result = state.carry.result ∧
      (state.carry.loadNarrow here.index dst value).newArray = state.carry.newArray := by
    unfold CarryOver.loadNarrow
    split
    · exact ⟨rfl, rfl⟩
    · split <;> exact ⟨rfl, rfl⟩
  cases part with
  | zeroed => simp at absent
  | result => exact loaded.1
  | newArray => exact loaded.2
  | _ => rfl

theorem footprint_writeConstant (dst : Reg) (heap : String) (may_declare : .declared ∈ parts)
    (may_write : [.varDeclaringMethod, .assignHeapAllocation] ⊆ relations) :
    Footprint parts relations (cx.writeConstant here dst heap) :=
  (footprint_use cx may_declare (may_write (by simp)) dst).bind fun _ =>
    footprint_writeObject cx here _ _ (may_write (by simp))

theorem footprint_writeString (dst : Reg) (text : String) :
    Footprint [.declared]
      [.varDeclaringMethod, .assignHeapAllocation, .stringRaw, .stringConstant]
      (cx.writeString here dst text) :=
  (footprint_stringConstant text (by simp)).bind fun _ =>
    footprint_writeConstant cx here dst _ (by simp) (by simp)

theorem footprint_writeClass (dst : Reg) (cls : String) :
    Footprint [.declared] [.varDeclaringMethod, .assignHeapAllocation, .classHeap]
      (cx.writeClass here dst cls) :=
  .bind (.row (by simp)) fun _ => footprint_writeConstant cx here dst _ (by simp) (by simp)

theorem footprint_writeMethodHandle (dst : Reg) (sig : MethodSig) :
    Footprint [.declared] [.varDeclaringMethod, .assignHeapAllocation, .methodHandleConstant]
      (cx.writeMethodHandle here dst sig) :=
  .bind (.row (by simp)) fun _ => footprint_writeConstant cx here dst _ (by simp) (by simp)

theorem footprint_writeFieldHandle (dst : Reg) (sig : FieldSig) :
    Footprint [.declared] [.varDeclaringMethod, .assignHeapAllocation, .methodHandleConstant]
      (cx.writeFieldHandle here dst sig) :=
  .bind (.notice cx rfl) fun _ => footprint_writeConstant cx here dst _ (by simp) (by simp)

theorem footprint_writePositioned (relation : Relation) (key : String) (texts : List String)
    (may_write : relation ∈ relations) :
    Footprint parts relations (writePositioned relation key texts) :=
  .forM fun _ => .row may_write

theorem footprint_writeMethodType (dst : Reg) (proto : Proto) :
    Footprint [.declared]
      [.varDeclaringMethod, .assignHeapAllocation, .methodTypeConstantParam, .methodTypeConstant]
      (cx.writeMethodType here dst proto) :=
  (footprint_writePositioned _ _ _ (by simp)).bind fun _ =>
    .bind (.row (by simp)) fun _ => footprint_writeConstant cx here dst _ (by simp) (by simp)

theorem footprint_writeMonitor (action : MonitorAction) (object : Reg) :
    Footprint [.declared] [.varDeclaringMethod, .enterMonitor, .exitMonitor]
      (cx.writeMonitor here action object) := by
  cases action with
  | enter =>
    exact (footprint_use cx (by simp) (by simp) object).bind fun _ => .row (by simp)
  | exit =>
    exact (footprint_use cx (by simp) (by simp) object).bind fun _ => .row (by simp)

theorem footprint_writeCast (object : Reg) (type : String) :
    Footprint [.declared] [.varDeclaringMethod, .assignCast] (cx.writeCast here object type) :=
  (footprint_use cx (by simp) (by simp) object).bind fun _ => .row (by simp)

theorem footprint_writeInstanceOf (dst object : Reg) (type : String) :
    Footprint [.declared] [.varDeclaringMethod, .assignInstanceOf]
      (cx.writeInstanceOf here dst object type) :=
  (footprint_use cx (by simp) (by simp) object).bind fun _ =>
    (footprint_use cx (by simp) (by simp) dst).bind fun _ => .row (by simp)

theorem footprint_writeUnop (dst src : Reg) :
    Footprint [.declared] [.varDeclaringMethod, .assignUnop, .assignOperFrom, .statementType]
      (cx.writeUnop here dst src) :=
  (footprint_use cx (by simp) (by simp) src).bind fun _ =>
    (footprint_use cx (by simp) (by simp) dst).bind fun _ =>
      .bind (.row (by simp)) fun _ => .bind (.row (by simp)) fun _ =>
        footprint_writeStatementType cx here (by simp)

theorem footprint_writeBinop (dst left right : Reg) :
    Footprint [.declared] [.varDeclaringMethod, .assignBinop, .assignOperFrom, .statementType]
      (cx.writeBinop here dst left right) :=
  (footprint_use cx (by simp) (by simp) left).bind fun _ =>
    (footprint_use cx (by simp) (by simp) right).bind fun _ =>
      (footprint_use cx (by simp) (by simp) dst).bind fun _ =>
        .bind (.row (by simp)) fun _ => .bind (.row (by simp)) fun _ =>
          .bind (.row (by simp)) fun _ => footprint_writeStatementType cx here (by simp)

theorem footprint_writeBinopLiteral (dst left : Reg) :
    Footprint [.declared] [.varDeclaringMethod, .assignBinop, .assignOperFrom, .statementType]
      (cx.writeBinopLiteral here dst left) :=
  (footprint_use cx (by simp) (by simp) left).bind fun _ =>
    (footprint_use cx (by simp) (by simp) dst).bind fun _ =>
      .bind (.row (by simp)) fun _ => .bind (.row (by simp)) fun _ =>
        footprint_writeStatementType cx here (by simp)

theorem footprint_writeArrayAccess (access : Access) (value array position : Reg) :
    Footprint [.declared]
      [.varDeclaringMethod, .loadArrayIndex, .storeArrayIndex, .arrayInsnIndex]
      (cx.writeArrayAccess here access value array position) := by
  refine (footprint_use cx (by simp) (by simp) value).bind fun _ =>
    (footprint_use cx (by simp) (by simp) array).bind fun _ =>
      (footprint_use cx (by simp) (by simp) position).bind fun _ =>
        .bind (.row ?_) fun _ => .row (by simp)
  cases access <;> simp

theorem footprint_writeFieldAccess (access : Access) (value : Reg) (object : Option Reg)
    (field : FieldSig) :
    Footprint [.declared, .counters, .accesses] [.varDeclaringMethod]
      (cx.writeFieldAccess here access value object field) := by
  refine (footprint_numberedInsn cx (by simp) _).bind fun _ =>
    (footprint_use cx (by simp) (by simp) value).bind fun _ =>
      .bind (.mapM_option (footprint_use cx (by simp) (by simp)) object) fun _ => .modify ?_
  intro state part absent
  cases part with
  | accesses => simp at absent
  | _ => rfl

/-! ## Control flow -/

theorem footprint_writeReturnVoid :
    Footprint [] [.returnVoid] (cx.writeReturnVoid here) :=
  .row (by simp)

theorem footprint_writeReturn (src : Reg) :
    Footprint [.declared] [.varDeclaringMethod, .returnValue] (cx.writeReturn here src) :=
  (footprint_use cx (by simp) (by simp) src).bind fun _ => .row (by simp)

theorem footprint_writeThrow (exception : Reg) :
    Footprint [.declared, .counters] [.varDeclaringMethod, .throw]
      (cx.writeThrow here exception) :=
  (footprint_numberedInsn cx (by simp) _).bind fun _ =>
    (footprint_use cx (by simp) (by simp) exception).bind fun _ => .row (by simp)

theorem footprint_writeCatch (dst : Reg) : Footprint [.catches] [] (writeCatch here dst) := by
  refine .modify ?_
  intro state part absent
  cases part with
  | catches => simp at absent
  | _ => rfl

theorem footprint_queueBranch (relation : Relation) (insn : String) (may_queue : .edges ∈ parts) :
    Footprint parts relations (queueBranch here relation insn) := by
  refine .modify ?_
  intro state part absent
  cases part with
  | edges => exact absurd may_queue absent
  | _ => rfl

theorem footprint_writeGoto : Footprint [.edges] [] (cx.writeGoto here) :=
  footprint_queueBranch here _ _ (by simp)

theorem footprint_writeTest (insn : String) (test : TestOp) (left : Reg) (right : Option Reg)
    (may_declare : .declared ∈ parts) :
    Footprint parts [.varDeclaringMethod, .ifVar, .operatorAt]
      (cx.writeTest insn test left right) := by
  refine (footprint_use cx may_declare (by simp) left).bind fun _ =>
    .bind (.row (by simp)) fun _ => ?_
  cases right with
  | none => exact .row (by simp)
  | some right =>
    exact (footprint_use cx may_declare (by simp) right).bind fun _ =>
      .bind (.row (by simp)) fun _ => .row (by simp)

theorem footprint_writeBranch (test : TestOp) (left : Reg) (right : Option Reg) :
    Footprint [.declared, .edges] [.varDeclaringMethod, .ifVar, .operatorAt]
      (cx.writeBranch here test left right) :=
  (footprint_queueBranch here _ _ (by simp)).bind fun _ =>
    footprint_writeTest cx _ test left right (by simp)

theorem footprint_writeSwitch (kind : SwitchKind) (key : Reg) (offset : Int) :
    Footprint [.declared, .switches] [.varDeclaringMethod, .tableSwitch, .lookupSwitch]
      (cx.writeSwitch here kind key offset) := by
  refine (footprint_use cx (by simp) (by simp) key).bind fun _ => .bind (.row ?_) fun _ => ?_
  · cases kind <;> simp [switchRelation]
  · split
    · exact .notice cx rfl
    · refine .modify ?_
      intro state part absent
      cases part with
      | switches => simp at absent
      | _ => rfl

theorem footprint_writeSwitchPayload (kind : SwitchKind) (cases : List (Int × Int)) :
    Footprint [.edges, .switches] [] (cx.writeSwitchPayload here kind cases) := by
  have released : Footprint [.edges, .switches] [] (modify fun state : MethodState =>
      { state with switches := state.switches.release here.address }) := by
    refine .modify ?_
    intro state part absent
    cases part with
    | switches => simp at absent
    | _ => rfl
  have queued : ∀ edges, Footprint [.edges, .switches] []
      (modify (·.withAddresses (·.queueAll edges)) : MethodEmit Unit) := by
    intro edges
    refine .modify ?_
    intro state part absent
    cases part with
    | edges => simp at absent
    | _ => rfl
  exact Footprint.get.bind fun _ => released.bind fun _ =>
    .guarded (.notice cx rfl) (queued _)

/-! ## Allocations -/

theorem footprint_writeNewInstance (dst : Reg) (type : String) :
    Footprint [.declared, .counters]
      [.varDeclaringMethod, .normalHeap, .assignHeapAllocation, .emptyArray]
      (cx.writeNewInstance here dst type) :=
  (footprint_use cx (by simp) (by simp) dst).bind fun _ =>
    (footprint_allocate cx here type _ false (by simp) (by simp)).bind fun _ => .pure ()

theorem footprint_writeArrayType (type : Descriptor)
    (may_write : [.arrayType, .componentType] ⊆ relations) :
    Footprint parts relations (writeArrayType type) := by
  refine .bind (.row (may_write (by simp))) fun _ => ?_
  split
  · exact .row (may_write (by simp))
  · exact .pure ()

theorem footprint_writeNewArray (dst size : Reg) (type : Descriptor) :
    Footprint [.declared, .counters, .zeroed, .newArray]
      [.varDeclaringMethod, .arrayType, .componentType, .normalHeap, .assignHeapAllocation,
        .emptyArray]
      (cx.writeNewArray here dst size type) := by
  refine (footprint_writeArrayType type (by simp)).bind fun _ => Footprint.get.bind fun _ =>
    .bind (.modify ?_) fun _ => (footprint_use cx (by simp) (by simp) dst).bind fun _ =>
      (footprint_allocate cx here _ _ _ (by simp) (by simp)).bind fun _ => .modify ?_
  · intro state part absent
    cases part with
    | zeroed => simp at absent
    | _ => rfl
  · intro state part absent
    cases part with
    | newArray => simp at absent
    | _ => rfl

theorem footprint_writeFilledArray (elements : List Reg) (type : Descriptor) :
    Footprint [.result] [.arrayType, .componentType] (writeFilledArray here elements type) := by
  refine (footprint_writeArrayType type (by simp)).bind fun _ => .modify ?_
  intro state part absent
  cases part with
  | result => simp at absent
  | _ => rfl

theorem footprint_writeFilledElements (array heap : String) (elements : List Reg)
    (may_declare : .declared ∈ parts)
    (may_write : [.varDeclaringMethod, .arrayInitialValueFromLocal] ⊆ relations) :
    Footprint parts relations (cx.writeFilledElements here array heap elements) :=
  .forM fun (element, _) =>
    (footprint_use cx may_declare (may_write (by simp)) element).bind fun _ =>
      .row (may_write (by simp))

/-- The relations of a result moved into a register. -/
def resultRelations : List Relation :=
  [.varDeclaringMethod, .assignReturnValue, .normalHeap, .assignHeapAllocation, .emptyArray,
    .arrayInitialValueFromLocal]

theorem footprint_writeTaken (dst : Reg) (producer : Producer) (may_declare : .declared ∈ parts)
    (may_count : .counters ∈ parts) :
    Footprint parts resultRelations (cx.writeTaken here dst producer) := by
  refine (footprint_use cx may_declare (by simp [resultRelations]) dst).bind fun _ => ?_
  cases producer with
  | invocation insn => exact .row (by simp [resultRelations])
  | filledArray type elements =>
    exact (footprint_allocate cx here _ _ _ may_count (by simp [resultRelations])).bind fun _ =>
      footprint_writeFilledElements cx here _ _ _ may_declare (by simp [resultRelations])

theorem footprint_writeResult (dst : Reg) (producer : Producer) :
    Footprint [.declared, .counters, .result] resultRelations
      (cx.writeResult here dst producer) := by
  refine .bind (.modify ?_) fun _ =>
    footprint_writeTaken cx here dst producer (by simp) (by simp)
  intro state part absent
  cases part with
  | result => simp at absent
  | _ => rfl

theorem footprint_writeFillArray (array : Reg) (offset : Int) :
    Footprint [.newArray, .fills] [] (cx.writeFillArray here array offset) := by
  have dropped : Footprint [.newArray, .fills] []
      (modify (·.withCarry (·.dropNewArray)) : MethodEmit Unit) := by
    refine .modify ?_
    intro state part absent
    cases part with
    | newArray => simp at absent
    | _ => rfl
  have registered : ∀ target fill, Footprint [.newArray, .fills] []
      (modify fun state : MethodState =>
        { state with fills := state.fills.register target fill }) := by
    intro target fill
    refine .modify ?_
    intro state part absent
    cases part with
    | fills => simp at absent
    | _ => rfl
  refine Footprint.get.bind fun state => ?_
  split
  · exact .notice cx rfl
  · refine dropped.bind fun _ => ?_
    split
    · exact .guarded (.notice cx rfl) (.notice cx rfl)
    · exact .guarded (.notice cx rfl) (registered _ _)

theorem footprint_writeFill (type : String) (values : List Int) (fill : ArrayFill)
    (may_declare : .declared ∈ parts)
    (may_write :
      [.varDeclaringMethod, .numConstantRaw, .arrayInitialValueFromConst] ⊆ relations) :
    Footprint parts relations (cx.writeFill type values fill) :=
  (footprint_use cx may_declare (may_write (by simp)) fill.array).bind fun _ =>
    .forM fun _ => .bind (.row (may_write (by simp))) fun _ => .row (may_write (by simp))

theorem footprint_writeArrayPayload (width : Nat) (values : List Int) :
    Footprint [.declared, .fills]
      [.varDeclaringMethod, .numConstantRaw, .arrayInitialValueFromConst]
      (cx.writeArrayPayload here width values) := by
  refine Footprint.get.bind fun _ => .bind (.modify ?_) fun _ => .ite (.notice cx rfl) ?_
  · intro state part absent
    cases part with
    | fills => simp at absent
    | _ => rfl
  · split
    · exact .notice cx rfl
    · exact .forM fun fill => footprint_writeFill cx _ _ fill (by simp) (by simp)

/-! ## Invocations -/

theorem footprint_produce (index : Nat) (producer : Producer) (may_produce : .result ∈ parts) :
    Footprint parts relations
      (modify (·.withCarry (·.produce index producer)) : MethodEmit Unit) := by
  refine .modify ?_
  intro state part absent
  cases part with
  | result => exact absurd may_produce absent
  | _ => rfl

theorem footprint_writeParams (insn : String) (first : Nat) (params : List Reg)
    (may_declare : .declared ∈ parts)
    (may_write : [.varDeclaringMethod, .actualParam] ⊆ relations) :
    Footprint parts relations (cx.writeParams insn first params) :=
  .forM fun (reg, _) => (footprint_use cx may_declare (may_write (by simp)) reg).bind fun _ =>
    .row (may_write (by simp))

theorem footprint_writeReceiver (insn : String) (receiver : Reg) (may_declare : .declared ∈ parts)
    (may_write : [.varDeclaringMethod, .actualParam] ⊆ relations) :
    Footprint parts relations (cx.writeReceiver insn receiver) :=
  (footprint_use cx may_declare (may_write (by simp)) receiver).bind fun _ =>
    .bind (.row (may_write (by simp))) fun _ => .pure _

theorem footprint_writeInvocationLine (insn : String)
    (may_write : .methodInvocationLine ∈ relations) :
    Footprint parts relations (cx.writeInvocationLine here insn) := by
  unfold writeInvocationLine
  split
  · exact .row may_write
  · exact .pure ()

/-- The relations that an invocation of a method may write to. -/
def callRelations : List Relation :=
  [.varDeclaringMethod, .actualParam, .methodInvocationLine, .staticMethodInvocation,
    .specialMethodInvocation, .virtualMethodInvocation, .superMethodInvocation,
    .polymorphicInvocation]

theorem footprint_writeCall (call : Call) :
    Footprint [.declared, .counters, .result] callRelations (cx.writeCall here call) := by
  refine (footprint_numberedInsn cx (by simp) _).bind fun insn =>
    (Footprint.mapM_option ?_ _).bind fun _ =>
      (footprint_writeParams cx _ _ _ (by simp) (by simp [callRelations])).bind fun _ =>
        (footprint_writeInvocationLine cx here _ (by simp [callRelations])).bind fun _ =>
          .bind (.row ?_) fun _ => (footprint_produce _ _ (by simp)).bind fun _ => .pure _
  · exact fun receiver =>
      footprint_writeReceiver cx insn receiver (by simp) (by simp [callRelations])
  · cases call.kind <;> simp [CallKind.relation, callRelations]

theorem footprint_writePolymorphicCall (call : Call) :
    Footprint [.declared, .counters, .result] callRelations
      (cx.writePolymorphicCall here call) :=
  (footprint_writeCall cx here call).bind fun _ => .row (by simp [callRelations])

theorem footprint_writeCustomCall (call : CustomCall) :
    Footprint [.declared, .counters, .result]
      [.varDeclaringMethod, .actualParam, .dynamicMethodInvocation,
        .dynamicMethodInvocationParamType, .stringRaw, .stringConstant]
      (cx.writeCustomCall here call) :=
  (footprint_numberedInsn cx (by simp) _).bind fun _ =>
    (footprint_writeParams cx _ _ _ (by simp) (by simp)).bind fun _ =>
      .bind (.row (by simp)) fun _ => (footprint_writePositioned _ _ _ (by simp)).bind fun _ =>
        (footprint_stringConstant _ (by simp)).bind fun _ =>
          (footprint_stringConstant _ (by simp)).bind fun _ => footprint_produce _ _ (by simp)

end DalvikFacts.MethodContext
