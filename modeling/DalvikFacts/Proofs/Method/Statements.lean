import DalvikFacts.Proofs.Method.Outputs

/-!
# Outputs of the instructions

What each action that carries out an instruction gives out, and what it leaves behind.
-/

namespace DalvikFacts.MethodContext

variable (cx : MethodContext) (here : LocatedInstr) (state : MethodState)

/-! ## Parts of instructions -/

theorem says_numberedInsn (kind : String) :
    cx.Says (cx.numberedInsn kind) state (cx.insn kind (state.counters.peek kind)) []
      (state.count kind) :=
  ⟨fun _ => rfl⟩

/-- The row of the assignment of an object. -/
def object (heap var : String) : Output :=
  .row .assignHeapAllocation
    [cx.assignInsn here.index, toString here.index, heap, var, cx.id,
      Identifier.lineText (cx.line? here)]

theorem says_writeObject (heap var : String) :
    cx.Says (cx.writeObject here heap var) state () [cx.object here heap var] state :=
  .row _ _

/-- The identifier of the next allocation of a type. -/
def nextHeap (type : String) : String :=
  Identifier.allocation cx.id type (state.counters.peek type)

/-- The rows of the allocation of an object. -/
def allocated (heap type var : String) (isEmpty : Bool) : List Output :=
  [.row .normalHeap [heap, type], cx.object here heap var] ++
    if isEmpty then [.row .emptyArray [heap]] else []

theorem says_allocate (type var : String) (isEmpty : Bool) :
    cx.Says (cx.allocate here type var isEmpty) state (cx.nextHeap state type)
      (cx.allocated here (cx.nextHeap state type) type var isEmpty) (state.count type) := by
  cases isEmpty <;> exact ⟨fun _ => rfl⟩

/-- The rows of a string constant. -/
def stringRows (text : String) : List Output :=
  [.row .stringRaw [StringConstant.identifier (StringConstant.encode text),
      StringConstant.encode text],
    .row .stringConstant [StringConstant.identifier (StringConstant.encode text)]]

theorem says_stringConstant (text : String) :
    cx.Says (Emit.stringConstant text) state
      (StringConstant.identifier (StringConstant.encode text)) (stringRows text) state :=
  ⟨fun _ => rfl⟩

/-- The type of a statement. -/
def typing : Output :=
  match here.instr.statementType? with
  | some type =>
    .row .statementType [cx.assignInsn here.index, type.operand.name, type.result.name]
  | none => .notice (.method cx.id (.noStatementType here.instr))

theorem says_writeStatementType :
    cx.Says (cx.writeStatementType here) state () [cx.typing here] state := by
  unfold writeStatementType typing
  cases here.instr.statementType? with
  | none => exact .notice _
  | some type => exact .row _ _

/-- One row for each text, with its position. -/
def positioned (relation : Relation) (key : String) (texts : List String) : List Output :=
  texts.zipIdx.map fun (text, position) => .row relation [key, toString position, text]

theorem says_writePositioned (relation : Relation) (key : String) (texts : List String) :
    cx.Says (writePositioned relation key texts) state () (positioned relation key texts)
      state := by
  unfold positioned
  rw [List.map_eq_flatMap]
  exact .forM fun _ => .row _ _

/-! ## Assignments -/

/-- A move between registers. -/
def moveOutputs (dst src : Reg) : List Output :=
  [.mention (cx.variableOf src), .mention (cx.variableOf dst),
    .row .assignLocal
      [cx.assignInsn here.index, toString here.index, cx.variableOf src, cx.variableOf dst, cx.id],
    cx.typing here]

theorem says_writeMove (dst src : Reg) :
    cx.Says (cx.writeMove here dst src) state () (cx.moveOutputs here dst src) state :=
  (Says.use src).bind <| (Says.use dst).bind <| (Says.row _ _).bind <|
    cx.says_writeStatementType here state

/-- A number loaded into a register. -/
def numberOutputs (dst : Reg) (value : Int) : List Output :=
  [.mention (cx.variableOf dst),
    .row .assignNumConstant
      [cx.assignInsn here.index, toString here.index, toString value, cx.variableOf dst, cx.id],
    cx.typing here]

theorem says_writeNumber (dst : Reg) (value : Int) :
    cx.Says (cx.writeNumber here dst value) state () (cx.numberOutputs here dst value) state :=
  (Says.use dst).bind <| (Says.row _ _).bind <| cx.says_writeStatementType here state

theorem says_writeNarrowNumber (dst : Reg) (value : Int) :
    cx.Says (cx.writeNarrowNumber here dst value) state () (cx.numberOutputs here dst value)
      (state.withCarry (·.loadNarrow here.index dst value)) :=
  (Says.modify fun _ => rfl).silent_bind (cx.says_writeNumber here _ dst value)

/-- A constant object loaded into a register. -/
def constantOutputs (dst : Reg) (heap : String) : List Output :=
  [.mention (cx.variableOf dst), cx.object here heap (cx.variableOf dst)]

theorem says_writeConstant (dst : Reg) (heap : String) :
    cx.Says (cx.writeConstant here dst heap) state () (cx.constantOutputs here dst heap) state :=
  (Says.use dst).bind (cx.says_writeObject here state heap _)

/-- A string loaded into a register. -/
def stringOutputs (dst : Reg) (text : String) : List Output :=
  stringRows text ++
    cx.constantOutputs here dst (StringConstant.identifier (StringConstant.encode text))

theorem says_writeString (dst : Reg) (text : String) :
    cx.Says (cx.writeString here dst text) state () (cx.stringOutputs here dst text) state :=
  (cx.says_stringConstant state text).bind (cx.says_writeConstant here state dst _)

/-- A class loaded into a register. -/
def classOutputs (dst : Reg) (cls : String) : List Output :=
  .row .classHeap [Identifier.classConstant cls, cls] ::
    cx.constantOutputs here dst (Identifier.classConstant cls)

theorem says_writeClass (dst : Reg) (cls : String) :
    cx.Says (cx.writeClass here dst cls) state () (cx.classOutputs here dst cls) state :=
  (Says.row _ _).bind (cx.says_writeConstant here state dst _)

/-- A handle of a method loaded into a register. -/
def methodHandleOutputs (dst : Reg) (sig : MethodSig) : List Output :=
  .row .methodHandleConstant
      [Identifier.methodHandleConstant sig.id, sig.id, sig.returnType,
        Identifier.commaList sig.params, toString sig.arity] ::
    cx.constantOutputs here dst (Identifier.methodHandleConstant sig.id)

theorem says_writeMethodHandle (dst : Reg) (sig : MethodSig) :
    cx.Says (cx.writeMethodHandle here dst sig) state () (cx.methodHandleOutputs here dst sig)
      state :=
  (Says.row _ _).bind (cx.says_writeConstant here state dst _)

/-- A handle of a field loaded into a register. -/
def fieldHandleOutputs (dst : Reg) (sig : FieldSig) : List Output :=
  .notice (.method cx.id (.fieldHandle sig.id)) ::
    cx.constantOutputs here dst (Identifier.methodHandleConstant sig.id)

theorem says_writeFieldHandle (dst : Reg) (sig : FieldSig) :
    cx.Says (cx.writeFieldHandle here dst sig) state () (cx.fieldHandleOutputs here dst sig)
      state :=
  (Says.notice _).bind (cx.says_writeConstant here state dst _)

/-- The rows of a method type. -/
def methodTypeRows (params : List String) (returnType : String) : List Output :=
  positioned .methodTypeConstantParam (Identifier.methodTypeConstant params returnType) params ++
    [.row .methodTypeConstant
      [Identifier.methodTypeConstant params returnType, toString params.length, returnType,
        Identifier.commaList params]]

/-- A method type loaded into a register. -/
def methodTypeOutputs (dst : Reg) (proto : Proto) : List Output :=
  methodTypeRows (proto.params.map Descriptor.sourceName) proto.returnType.sourceName ++
    cx.constantOutputs here dst (Identifier.methodTypeConstant
      (proto.params.map Descriptor.sourceName) proto.returnType.sourceName)

theorem says_writeMethodType (dst : Reg) (proto : Proto) :
    cx.Says (cx.writeMethodType here dst proto) state () (cx.methodTypeOutputs here dst proto)
      state := by
  unfold methodTypeOutputs methodTypeRows
  rw [List.append_assoc]
  exact (cx.says_writePositioned state _ _ _).bind <| (Says.row _ _).bind <|
    cx.says_writeConstant here state dst _

/-- The relation of a monitor entered or left. -/
def monitorRelation : MonitorAction → Relation
  | .enter => .enterMonitor
  | .exit => .exitMonitor

/-- The kind of a monitor entered or left. -/
def monitorKind : MonitorAction → String
  | .enter => "enter-monitor"
  | .exit => "exit-monitor"

/-- A monitor entered or left. -/
def monitorOutputs (action : MonitorAction) (object : Reg) : List Output :=
  [.mention (cx.variableOf object),
    .row (monitorRelation action)
      [cx.insn (monitorKind action) here.index, toString here.index, cx.variableOf object, cx.id]]

theorem says_writeMonitor (action : MonitorAction) (object : Reg) :
    cx.Says (cx.writeMonitor here action object) state () (cx.monitorOutputs here action object)
      state := by
  cases action with
  | enter => exact (Says.use object).bind (.row _ _)
  | exit => exact (Says.use object).bind (.row _ _)

/-- A register cast to a type. -/
def castOutputs (object : Reg) (type : String) : List Output :=
  [.mention (cx.variableOf object),
    .row .assignCast
      [cx.assignInsn here.index, toString here.index, cx.variableOf object, cx.variableOf object,
        type, cx.id]]

theorem says_writeCast (object : Reg) (type : String) :
    cx.Says (cx.writeCast here object type) state () (cx.castOutputs here object type) state :=
  (Says.use object).bind (.row _ _)

/-- A type test. -/
def instanceOfOutputs (dst object : Reg) (type : String) : List Output :=
  [.mention (cx.variableOf object), .mention (cx.variableOf dst),
    .row .assignInstanceOf
      [cx.assignInsn here.index, toString here.index, cx.variableOf object, cx.variableOf dst,
        type, cx.id]]

theorem says_writeInstanceOf (dst object : Reg) (type : String) :
    cx.Says (cx.writeInstanceOf here dst object type) state ()
      (cx.instanceOfOutputs here dst object type) state :=
  (Says.use object).bind <| (Says.use dst).bind (.row _ _)

/-- The row of an operand of an assignment. -/
def operand (position : String) (reg : Reg) : Output :=
  .row .assignOperFrom [cx.assignInsn here.index, position, cx.variableOf reg]

/-- A unary operation. -/
def unopOutputs (dst src : Reg) : List Output :=
  [.mention (cx.variableOf src), .mention (cx.variableOf dst),
    .row .assignUnop [cx.assignInsn here.index, toString here.index, cx.variableOf dst, cx.id],
    cx.operand here leftOperand src, cx.typing here]

theorem says_writeUnop (dst src : Reg) :
    cx.Says (cx.writeUnop here dst src) state () (cx.unopOutputs here dst src) state :=
  (Says.use src).bind <| (Says.use dst).bind <| (Says.row _ _).bind <| (Says.row _ _).bind <|
    cx.says_writeStatementType here state

/-- A binary operation on two registers. -/
def binopOutputs (dst left right : Reg) : List Output :=
  [.mention (cx.variableOf left), .mention (cx.variableOf right), .mention (cx.variableOf dst),
    .row .assignBinop [cx.assignInsn here.index, toString here.index, cx.variableOf dst, cx.id],
    cx.operand here leftOperand left, cx.operand here rightOperand right, cx.typing here]

theorem says_writeBinop (dst left right : Reg) :
    cx.Says (cx.writeBinop here dst left right) state () (cx.binopOutputs here dst left right)
      state :=
  (Says.use left).bind <| (Says.use right).bind <| (Says.use dst).bind <|
    (Says.row _ _).bind <| (Says.row _ _).bind <| (Says.row _ _).bind <|
      cx.says_writeStatementType here state

/-- A binary operation of a register and a literal. -/
def binopLiteralOutputs (dst left : Reg) : List Output :=
  [.mention (cx.variableOf left), .mention (cx.variableOf dst),
    .row .assignBinop [cx.assignInsn here.index, toString here.index, cx.variableOf dst, cx.id],
    cx.operand here leftOperand left, cx.typing here]

theorem says_writeBinopLiteral (dst left : Reg) :
    cx.Says (cx.writeBinopLiteral here dst left) state () (cx.binopLiteralOutputs here dst left)
      state :=
  (Says.use left).bind <| (Says.use dst).bind <| (Says.row _ _).bind <| (Says.row _ _).bind <|
    cx.says_writeStatementType here state

/-- The relation of an array element read or written. -/
def arrayRelation : Access → Relation
  | .load => .loadArrayIndex
  | .store => .storeArrayIndex

/-- An array element read or written. -/
def arrayAccessOutputs (access : Access) (value array position : Reg) : List Output :=
  [.mention (cx.variableOf value), .mention (cx.variableOf array),
    .mention (cx.variableOf position),
    .row (arrayRelation access)
      [cx.assignInsn here.index, toString here.index, cx.variableOf value, cx.variableOf array,
        cx.id],
    .row .arrayInsnIndex [cx.assignInsn here.index, cx.variableOf position]]

theorem says_writeArrayAccess (access : Access) (value array position : Reg) :
    cx.Says (cx.writeArrayAccess here access value array position) state ()
      (cx.arrayAccessOutputs here access value array position) state := by
  cases access with
  | load =>
    exact (Says.use value).bind <| (Says.use array).bind <| (Says.use position).bind <|
      (Says.row _ _).bind (.row _ _)
  | store =>
    exact (Says.use value).bind <| (Says.use array).bind <| (Says.use position).bind <|
      (Says.row _ _).bind (.row _ _)

/-- The identifier of the next instruction of a kind that is numbered. -/
def nextInsn (kind : String) : String :=
  cx.insn kind (state.counters.peek kind)

/-- The access to a field, under the identifier of its instruction. -/
def fieldAccess (insn : String) (access : Access) (value : Reg) (object : Option Reg)
    (field : FieldSig) : FieldAccess where
  relation := fieldRelation access object.isSome
  insn
  index := here.index
  var := cx.variableOf value
  base := object.map cx.variableOf
  field
  method := cx.id

/-- The variables of a field access are mentioned. -/
def fieldOutputs (value : Reg) (object : Option Reg) : List Output :=
  .mention (cx.variableOf value) :: object.toList.map fun reg => .mention (cx.variableOf reg)

/-- The state behind a field access, which is queued. -/
def accessed (access : Access) (value : Reg) (object : Option Reg) (field : FieldSig) :
    MethodState :=
  { state.count (fieldKind access field) with
    accesses := state.accesses.push (cx.fieldAccess here
      (cx.nextInsn state (fieldKind access field)) access value object field) }

theorem says_writeFieldAccess (access : Access) (value : Reg) (object : Option Reg)
    (field : FieldSig) :
    cx.Says (cx.writeFieldAccess here access value object field) state ()
      (cx.fieldOutputs value object) (cx.accessed here state access value object field) := by
  refine (cx.says_numberedInsn state _).silent_bind <| (Says.use value).bind ?_
  cases object with
  | none => exact .modify fun _ => rfl
  | some object =>
    rw [Option.mapM_some, map_eq_pure_bind, bind_assoc]
    exact (Says.use object).bind <| (Says.pure _ _).bind (.modify fun _ => rfl)

/-! ## Control flow -/

/-- A return without value. -/
def returnVoidOutputs : List Output :=
  [.row .returnVoid [cx.insn "return-void" here.index, toString here.index, cx.id]]

theorem says_writeReturnVoid :
    cx.Says (cx.writeReturnVoid here) state () (cx.returnVoidOutputs here) state :=
  .row _ _

/-- A return of a register. -/
def returnOutputs (src : Reg) : List Output :=
  [.mention (cx.variableOf src),
    .row .returnValue
      [cx.insn "return" here.index, toString here.index, cx.variableOf src, cx.id]]

theorem says_writeReturn (src : Reg) :
    cx.Says (cx.writeReturn here src) state () (cx.returnOutputs here src) state :=
  (Says.use src).bind (.row _ _)

/-- A thrown register. -/
def throwOutputs (insn : String) (exception : Reg) : List Output :=
  [.mention (cx.variableOf exception),
    .row .throw [insn, toString here.index, cx.variableOf exception, cx.id]]

theorem says_writeThrow (exception : Reg) :
    cx.Says (cx.writeThrow here exception) state ()
      (cx.throwOutputs here (cx.nextInsn state (Identifier.throwKind exception.toString))
        exception)
      (state.count (Identifier.throwKind exception.toString)) :=
  (cx.says_numberedInsn state _).silent_bind <| (Says.use exception).bind (.row _ _)

/-- The state behind a caught exception. -/
def caught (dst : Reg) : MethodState :=
  { state with catches := state.catches.push ⟨dst, here.address, here.index⟩ }

theorem says_writeCatch (dst : Reg) :
    cx.Says (writeCatch here dst) state () [] (caught here state dst) :=
  .modify fun _ => rfl

/-- The edge of a branch is queued. -/
def queued (relation : Relation) (insn : String) : MethodState :=
  state.withAddresses (·.queue
    { relation, insn, index := here.index, key := none, target := branchTarget? here })

theorem says_queueBranch (relation : Relation) (insn : String) :
    cx.Says (queueBranch here relation insn) state () [] (queued here state relation insn) :=
  .modify fun _ => rfl

theorem says_writeGoto :
    cx.Says (cx.writeGoto here) state () [] (queued here state .goto (cx.insn "goto" here.index)) :=
  cx.says_queueBranch here state _ _

/-- The rows of an operand of a test. -/
def testOperand (insn position : String) (reg : Reg) : List Output :=
  [.mention (cx.variableOf reg), .row .ifVar [insn, position, cx.variableOf reg]]

/-- The operands and the sign of a test. -/
def testOutputs (insn : String) (test : TestOp) (left : Reg) (right : Option Reg) : List Output :=
  cx.testOperand insn leftOperand left ++ right.toList.flatMap (cx.testOperand insn rightOperand) ++
    [.row .operatorAt [insn, testSign test]]

theorem says_writeBranch (test : TestOp) (left : Reg) (right : Option Reg) :
    cx.Says (cx.writeBranch here test left right) state ()
      (cx.testOutputs (cx.insn "if" here.index) test left right)
      (queued here state .branch (cx.insn "if" here.index)) := by
  refine (cx.says_queueBranch here state _ _).silent_bind ?_
  cases right with
  | none => exact (Says.use left).bind <| (Says.row _ _).bind (.row _ _)
  | some right =>
    exact (Says.use left).bind <| (Says.row _ _).bind <| (Says.use right).bind <|
      (Says.row _ _).bind (.row _ _)

/-- What is reported about a switch whose payload would lie before the entry. -/
def switchNotices (offset : Int) : List Output :=
  match Address.offset? here.address offset with
  | none => [.notice (.method cx.id (.switchBeforeEntry here.index))]
  | some _ => []

/-- A switch. -/
def switchOutputs (kind : SwitchKind) (key : Reg) (offset : Int) : List Output :=
  [.mention (cx.variableOf key),
    .row (switchRelation kind)
      [cx.switchInsn here.index, toString here.index, cx.variableOf key, cx.id]] ++
    cx.switchNotices here offset

/-- A switch waits for its payload, unless that would lie before the entry. -/
def awaitingCases (offset : Int) : MethodState :=
  match Address.offset? here.address offset with
  | none => state
  | some target =>
    { state with switches := state.switches.register target ⟨here.address, here.index⟩ }

theorem says_writeSwitch (kind : SwitchKind) (key : Reg) (offset : Int) :
    cx.Says (cx.writeSwitch here kind key offset) state () (cx.switchOutputs here kind key offset)
      (awaitingCases here state offset) := by
  unfold writeSwitch switchOutputs switchNotices awaitingCases
  cases Address.offset? here.address offset with
  | none => exact (Says.use key).bind <| (Says.row _ _).bind (.notice _)
  | some target => exact (Says.use key).bind <| (Says.row _ _).bind (.modify fun _ => rfl)

/-- The state behind a payload of cases: the switches that waited for it have their edges. -/
def releasedCases (kind : SwitchKind) (cases : List (Int × Int)) : MethodState :=
  { state with
    switches := state.switches.release here.address
    addresses := state.addresses.queueAll
      ((state.switches.waitingAt here.address).flatMap (cx.caseEdges kind cases)) }

/-- What is reported about a payload of cases that no switch waited for. -/
def casesNotices : List Output :=
  if (state.switches.waitingAt here.address).isEmpty then
    [.notice (.method cx.id (.unusedSwitchPayload here.address))]
  else []

theorem says_writeSwitchPayload (kind : SwitchKind) (cases : List (Int × Int)) :
    cx.Says (cx.writeSwitchPayload here kind cases) state () (cx.casesNotices here state)
      (cx.releasedCases here state kind cases) := by
  unfold casesNotices
  refine .get (fun _ => rfl) <| (Says.modify fun _ => rfl).silent_bind ?_
  split
  · exact (Says.notice _).bind_silent (.modify fun _ => rfl)
  · exact .modify fun _ => rfl

/-! ## Allocations -/

/-- An object of a class. -/
def newInstanceOutputs (heap : String) (dst : Reg) (type : String) : List Output :=
  .mention (cx.variableOf dst) :: cx.allocated here heap type (cx.variableOf dst) false

theorem says_writeNewInstance (dst : Reg) (type : String) :
    cx.Says (cx.writeNewInstance here dst type) state ()
      (cx.newInstanceOutputs here (cx.nextHeap state type) dst type) (state.count type) :=
  (Says.use dst).bind <| (cx.says_allocate here state type _ false).bind (.pure () _)

/-- The rows of an array type. -/
def arrayTypeRows (type : Descriptor) : List Output :=
  .row .arrayType [type.sourceName] :: type.component?.toList.map fun component =>
    .row .componentType [type.sourceName, component.sourceName]

theorem says_writeArrayType (type : Descriptor) :
    cx.Says (writeArrayType type) state () (arrayTypeRows type) state := by
  unfold writeArrayType arrayTypeRows
  cases type.component? with
  | none => exact (Says.row _ _).bind (.pure () _)
  | some component => exact (Says.row _ _).bind (.row _ _)

/-- An array without elements of its own. -/
def newArrayOutputs (heap : String) (dst : Reg) (type : Descriptor) (isEmpty : Bool) :
    List Output :=
  arrayTypeRows type ++
    .mention (cx.variableOf dst) ::
      cx.allocated here heap type.sourceName (cx.variableOf dst) isEmpty

/-- The state behind an array, which may be filled from a payload. -/
def arrayMade (type : String) : MethodState :=
  ((state.withCarry (·.dropZeroed)).count type).withCarry
    (·.setNewArray ⟨here.index, cx.nextHeap state type⟩)

theorem says_writeNewArray (dst size : Reg) (type : Descriptor) :
    cx.Says (cx.writeNewArray here dst size type) state ()
      (cx.newArrayOutputs here (cx.nextHeap state type.sourceName) dst type
        (state.carry.zeroSize here.index size))
      (cx.arrayMade here state type.sourceName) := by
  have stored := cx.says_allocate here (state.withCarry (·.dropZeroed)) type.sourceName
    (cx.variableOf dst) (state.carry.zeroSize here.index size)
  exact (cx.says_writeArrayType state type).bind <| .get (fun _ => rfl) <|
    (Says.modify fun _ => rfl).silent_bind <| (Says.use dst).bind <|
      stored.bind_silent (.modify fun _ => rfl)

/-- The state behind an array filled with registers, which can be moved out. -/
def arrayFilled (elements : List Reg) (type : Descriptor) : MethodState :=
  state.withCarry (·.produce here.index (.filledArray type.sourceName elements))

theorem says_writeFilledArray (elements : List Reg) (type : Descriptor) :
    cx.Says (writeFilledArray here elements type) state () (arrayTypeRows type)
      (arrayFilled here state elements type) :=
  (cx.says_writeArrayType state type).bind_silent (.modify fun _ => rfl)

/-- The rows of the registers that fill an array. -/
def filledElements (array heap : String) (elements : List Reg) : List Output :=
  elements.zipIdx.flatMap fun (element, position) =>
    [.mention (cx.variableOf element),
      .row .arrayInitialValueFromLocal
        [cx.assignInsn here.index, toString here.index, array, toString position,
          cx.variableOf element, heap, cx.id]]

theorem says_writeFilledElements (array heap : String) (elements : List Reg) :
    cx.Says (cx.writeFilledElements here array heap elements) state ()
      (cx.filledElements here array heap elements) state :=
  .forM fun (element, _) => (Says.use element).bind (.row _ _)

/-- A result moved into a register; a filled array is allocated there. -/
def resultOutputs (dst : Reg) : Producer → List Output
  | .invocation insn =>
    [.mention (cx.variableOf dst), .row .assignReturnValue [insn, cx.variableOf dst]]
  | .filledArray type elements =>
    .mention (cx.variableOf dst) ::
        cx.allocated here (cx.nextHeap state type) type (cx.variableOf dst) elements.isEmpty ++
      cx.filledElements here (cx.variableOf dst) (cx.nextHeap state type) elements

/-- The state behind a result that was moved out. -/
def resultTaken : Producer → MethodState
  | .invocation _ => state.withCarry (·.dropResult)
  | .filledArray type _ => (state.withCarry (·.dropResult)).count type

theorem says_writeResult (dst : Reg) (producer : Producer) :
    cx.Says (cx.writeResult here dst producer) state () (cx.resultOutputs here state dst producer)
      (resultTaken state producer) := by
  refine (Says.modify fun _ => rfl).silent_bind ?_
  cases producer with
  | invocation insn => exact (Says.use dst).bind (.row _ _)
  | filledArray type elements =>
    exact (Says.use dst).bind <|
      (cx.says_allocate here (state.withCarry (·.dropResult)) type _ _).bind
        (cx.says_writeFilledElements here _ _ _ elements)

/-- What is reported about an array to be filled, given the array allocated last. -/
def fillNotices (offset : Int) (newArray : Option NewArray) : List Output :=
  match newArray with
  | none => [.notice (.method cx.id (.fillWithoutArray here.index))]
  | some newArray =>
    (if newArray.index + fillDistance < here.index then
      [.notice (.method cx.id (.fillFarFromArray here.index newArray.index))]
    else []) ++
      match Address.offset? here.address offset with
      | none => [.notice (.method cx.id (.fillBeforeEntry here.index))]
      | some _ => []

/-- The array allocated last is taken; it waits for its elements, unless these would lie before the
entry. -/
def awaitingFill (array : Reg) (offset : Int) : MethodState :=
  match state.carry.newArray with
  | none => state
  | some newArray =>
    match Address.offset? here.address offset with
    | none => state.withCarry (·.dropNewArray)
    | some target =>
      { state.withCarry (·.dropNewArray) with
        fills := state.fills.register target ⟨array, here.index, newArray.heap⟩ }

theorem says_writeFillArray (array : Reg) (offset : Int) :
    cx.Says (cx.writeFillArray here array offset) state ()
      (cx.fillNotices here offset state.carry.newArray) (awaitingFill here state array offset) := by
  unfold writeFillArray
  refine .get (fun _ => rfl) ?_
  unfold fillNotices awaitingFill
  cases state.carry.newArray with
  | none => exact .notice _
  | some newArray =>
    refine (Says.modify fun _ => rfl).silent_bind <| .guarded (.notice _) ?_
    cases Address.offset? here.address offset with
    | none => exact .notice _
    | some target => exact .modify fun _ => rfl

/-- The rows of the elements of a payload for one of the arrays that it fills. -/
def filled (type : String) (values : List Int) (fill : ArrayFill) : List Output :=
  .mention (cx.variableOf fill.array) :: values.zipIdx.flatMap fun (value, position) =>
    [.row .numConstantRaw [toString value, type],
      .row .arrayInitialValueFromConst
        [cx.assignInsn fill.index, toString fill.index, cx.variableOf fill.array,
          toString position, toString value, fill.heap, cx.id]]

theorem says_writeFill (type : String) (values : List Int) (fill : ArrayFill) :
    cx.Says (cx.writeFill type values fill) state () (cx.filled type values fill) state :=
  (Says.use fill.array).bind <| .forM fun _ => (Says.row _ _).bind (.row _ _)

/-- What a payload says of the arrays that wait for it. -/
def payloadOutputs (width : Nat) (values : List Int) (fills : List ArrayFill) : List Output :=
  if fills.isEmpty then [.notice (.method cx.id (.unusedArrayPayload here.address))]
  else
    match elementType? width with
    | none => [.notice (.method cx.id (.unsupportedWidth width))]
    | some type => fills.flatMap (cx.filled type values)

/-- The state behind a payload of elements. -/
def releasedFills : MethodState :=
  { state with fills := state.fills.release here.address }

theorem says_writeArrayPayload (width : Nat) (values : List Int) :
    cx.Says (cx.writeArrayPayload here width values) state ()
      (cx.payloadOutputs here width values (state.fills.waitingAt here.address))
      (releasedFills here state) := by
  have told : ∀ fills (later : MethodState), cx.Says
      (if fills.isEmpty then cx.notice (.unusedArrayPayload here.address)
      else
        match elementType? width with
        | none => cx.notice (.unsupportedWidth width)
        | some type => fills.forM (cx.writeFill type values))
      later () (cx.payloadOutputs here width values fills) later := by
    intro fills later
    unfold payloadOutputs
    split
    · exact .notice _
    · cases elementType? width with
      | none => exact .notice _
      | some type => exact .forM fun fill => cx.says_writeFill _ _ values fill
  exact .get (fun _ => rfl) <| (Says.modify fun _ => rfl).silent_bind (told _ _)

/-! ## Invocations -/

/-- The rows of the parameters of an invocation, counted from the given position. -/
def paramRows (insn : String) (first : Nat) (params : List Reg) : List Output :=
  (params.zipIdx first).flatMap fun (reg, position) =>
    [.mention (cx.variableOf reg),
      .row .actualParam [toString position, insn, cx.variableOf reg]]

theorem says_writeParams (insn : String) (first : Nat) (params : List Reg) :
    cx.Says (cx.writeParams insn first params) state () (cx.paramRows insn first params) state :=
  .forM fun (reg, _) => (Says.use reg).bind (.row _ _)

/-- The rows of the receiver of an invocation. -/
def receiverRows (insn : String) (receiver : Reg) : List Output :=
  [.mention (cx.variableOf receiver), .row .actualParam ["0", insn, cx.variableOf receiver]]

theorem says_writeReceiver (insn : String) (receiver : Reg) :
    cx.Says (cx.writeReceiver insn receiver) state (cx.variableOf receiver)
      (cx.receiverRows insn receiver) state :=
  (Says.use receiver).bind <| (Says.row _ _).bind (.pure _ _)

/-- The row of the line of an invocation, if it is known. -/
def lineRows (insn : String) : List Output :=
  (cx.line? here).toList.map fun line => .row .methodInvocationLine [insn, toString line]

theorem says_writeInvocationLine (insn : String) :
    cx.Says (cx.writeInvocationLine here insn) state () (cx.lineRows here insn) state := by
  unfold writeInvocationLine lineRows
  cases cx.line? here with
  | none => exact .pure () _
  | some line => exact .row _ _

/-- An invocation. -/
def callOutputs (insn : String) (call : Call) : List Output :=
  call.arguments.receiver.toList.flatMap (cx.receiverRows insn) ++
    (cx.paramRows insn call.arguments.receiver.toList.length call.arguments.params ++
      (cx.lineRows here insn ++
        [.row call.kind.relation
          ([insn, toString here.index, call.callee.id] ++
            (call.arguments.receiver.map cx.variableOf).toList ++ [cx.id])]))

/-- The state behind an invocation, whose result can be moved out. -/
def invoked (kind : String) : MethodState :=
  (state.count kind).withCarry (·.produce here.index (.invocation (cx.nextInsn state kind)))

theorem says_writeCall (call : Call) :
    cx.Says (cx.writeCall here call) state (cx.nextInsn state call.callee.qualifiedName)
      (cx.callOutputs here (cx.nextInsn state call.callee.qualifiedName) call)
      (cx.invoked here state call.callee.qualifiedName) := by
  have received :=
    Says.mapM_option (cx.says_writeReceiver (state.count call.callee.qualifiedName)
      (cx.nextInsn state call.callee.qualifiedName)) call.arguments.receiver
  have length_eq : (call.arguments.receiver.map cx.variableOf).toList.length =
      call.arguments.receiver.toList.length := by
    cases call.arguments.receiver <;> rfl
  refine (cx.says_numberedInsn state _).silent_bind <| received.bind ?_
  rw [length_eq]
  refine (cx.says_writeParams _ _ _ _).bind <| (cx.says_writeInvocationLine here _ _).bind ?_
  exact (Says.row _ _).bind_silent <| (Says.modify fun _ => rfl).silent_bind (.pure _ _)

/-- An invocation of a method whose parameters are given at the invocation. -/
def polymorphicCallOutputs (insn : String) (call : Call) : List Output :=
  cx.callOutputs here insn call ++ [.row .polymorphicInvocation [insn, call.callee.name]]

theorem says_writePolymorphicCall (call : Call) :
    cx.Says (cx.writePolymorphicCall here call) state ()
      (cx.polymorphicCallOutputs here (cx.nextInsn state call.callee.qualifiedName) call)
      (cx.invoked here state call.callee.qualifiedName) :=
  (cx.says_writeCall here state call).bind (.row _ _)

/-- The kind of the invocations through a call site. -/
def siteKind (call : CustomCall) : String :=
  "invokedynamic " ++ call.name

/-- An invocation through a call site. -/
def customCallOutputs (insn : String) (call : CustomCall) : List Output :=
  cx.paramRows insn 0 call.arguments.params ++
    (.row .dynamicMethodInvocation
      [insn, toString here.index, call.bootstrap, call.name, call.proto.returnType.sourceName,
        toString (call.proto.params.map Descriptor.sourceName).length,
        Identifier.parenthesized (call.proto.params.map Descriptor.sourceName),
        toString call.handleKind.referenceKind, cx.id] ::
      (positioned .dynamicMethodInvocationParamType insn
          (call.proto.params.map Descriptor.sourceName) ++
        (stringRows call.name ++
          stringRows (call.proto.returnType.sourceName ++
            Identifier.parenthesized (call.proto.params.map Descriptor.sourceName)))))

theorem says_writeCustomCall (call : CustomCall) :
    cx.Says (cx.writeCustomCall here call) state ()
      (cx.customCallOutputs here (cx.nextInsn state (siteKind call)) call)
      (cx.invoked here state (siteKind call)) := by
  refine (cx.says_numberedInsn state _).silent_bind <| (cx.says_writeParams _ _ _ _).bind <|
    (Says.row _ _).bind <| (cx.says_writePositioned _ _ _ _).bind <|
      (cx.says_stringConstant _ _).bind ?_
  exact (cx.says_stringConstant _ _).bind_silent (.modify fun _ => rfl)

end DalvikFacts.MethodContext
