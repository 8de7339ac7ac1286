import DalvikFacts.Proofs.Method.Statements

/-!
# What instructions tell

The outputs of each instruction and the state behind it, given the state before it.  Properties of
all rows of a body follow from this one list of cases.
-/

theorem DalvikFacts.CarryOver.result_loadNarrow (carry : CarryOver) (index : Nat) (reg : Reg)
    (literal : Int) : (carry.loadNarrow index reg literal).result = carry.result := by
  unfold loadNarrow
  split
  · rfl
  · split <;> rfl

namespace DalvikFacts.Instr

/-- The families of instructions: those that move values into registers or do nothing, compute
values, load constants, make or test objects, pass control on, use members, or hold tables. -/
inductive Family
  | transfer
  | operation
  | constant
  | object
  | control
  | member
  | table

/-- The family of an instruction. -/
def family : Instr → Family
  | nop | move .. | moveResult .. | moveException _ | const .. | constWide .. | optimized ..
  | unknown .. => .transfer
  | arrayLength .. | compare .. | unop .. | binop .. | binopInPlace .. | binopLiteral ..
  | binopSmallLiteral .. | arrayAccess .. => .operation
  | constString .. | constClass .. | constMethodHandle .. | constMethodType .. => .constant
  | newInstance .. | newArray .. | filledNewArray .. | checkCast .. | instanceOf .. => .object
  | returnVoid | returnValue .. | monitor .. | throw _ | goto .. | branch .. | branchZero ..
  | switch .. => .control
  | instanceField .. | staticField .. => .member
  | invoke .. | invokePolymorphic .. | invokeCustom .. => .member
  | fillArrayData .. | packedSwitchPayload .. | sparseSwitchPayload .. | arrayPayload .. => .table

end DalvikFacts.Instr

namespace DalvikFacts.MethodContext

/-- What an instruction gives out in a state, and the state behind it. -/
inductive Tells (cx : MethodContext) (here : LocatedInstr) (state : MethodState) :
    List Output → MethodState → Prop
  | nop (instr_eq : here.instr = .nop) : Tells cx here state [] state
  | move {kind form dst src} (instr_eq : here.instr = .move kind form dst src) :
    Tells cx here state (cx.moveOutputs here dst src) state
  | moveResult {kind dst} (pending : PendingResult) (instr_eq : here.instr = .moveResult kind dst)
    (result_eq : state.carry.result = some pending) (behind : pending.index + 1 = here.index) :
    Tells cx here state (cx.resultOutputs here state dst pending.producer)
      (resultTaken state pending.producer)
  | moveException {dst} (instr_eq : here.instr = .moveException dst) :
    Tells cx here state [] (caught here state dst)
  | returnVoid (instr_eq : here.instr = .returnVoid) :
    Tells cx here state (cx.returnVoidOutputs here) state
  | returnValue {kind src} (instr_eq : here.instr = .returnValue kind src) :
    Tells cx here state (cx.returnOutputs here src) state
  | const {form dst literal} (instr_eq : here.instr = .const form dst literal) :
    Tells cx here state (cx.numberOutputs here dst (form.value literal))
      (state.withCarry (·.loadNarrow here.index dst (form.value literal)))
  | constWide {form dst literal} (instr_eq : here.instr = .constWide form dst literal) :
    Tells cx here state (cx.numberOutputs here dst (form.value literal)) state
  | constString {jumbo dst string} (text : String)
    (instr_eq : here.instr = .constString jumbo dst string) :
    Tells cx here state (cx.stringOutputs here dst text) state
  | constClass {dst type} (cls : String) (instr_eq : here.instr = .constClass dst type) :
    Tells cx here state (cx.classOutputs here dst cls) state
  | monitor {action object} (instr_eq : here.instr = .monitor action object) :
    Tells cx here state (cx.monitorOutputs here action object) state
  | checkCast {object type} (name : String) (instr_eq : here.instr = .checkCast object type) :
    Tells cx here state (cx.castOutputs here object name) state
  | instanceOf {dst object type} (name : String)
    (instr_eq : here.instr = .instanceOf dst object type) :
    Tells cx here state (cx.instanceOfOutputs here dst object name) state
  | arrayLength {dst array} (instr_eq : here.instr = .arrayLength dst array) :
    Tells cx here state (cx.unopOutputs here dst array) state
  | newInstance {dst type} (name : String) (instr_eq : here.instr = .newInstance dst type) :
    Tells cx here state (cx.newInstanceOutputs here (cx.nextHeap state name) dst name)
      (state.count name)
  | newArray {dst size type} (found : Descriptor)
    (instr_eq : here.instr = .newArray dst size type) :
    Tells cx here state
      (cx.newArrayOutputs here (cx.nextHeap state found.sourceName) dst found
        (state.carry.zeroSize here.index size))
      (cx.arrayMade here state found.sourceName)
  | filledNewArray {elements type} (found : Descriptor)
    (instr_eq : here.instr = .filledNewArray elements type) :
    Tells cx here state (arrayTypeRows found) (arrayFilled here state elements.registers found)
  | fillArrayData {array offset} (instr_eq : here.instr = .fillArrayData array offset) :
    Tells cx here state (cx.fillNotices here offset state.carry.newArray)
      (awaitingFill here state array offset)
  | throw {exception} (instr_eq : here.instr = .throw exception) :
    Tells cx here state
      (cx.throwOutputs here (cx.nextInsn state (Identifier.throwKind exception.toString))
        exception)
      (state.count (Identifier.throwKind exception.toString))
  | goto {form offset} (instr_eq : here.instr = .goto form offset) :
    Tells cx here state [] (queued here state .goto (cx.insn "goto" here.index))
  | switch {kind key offset} (instr_eq : here.instr = .switch kind key offset) :
    Tells cx here state (cx.switchOutputs here kind key offset) (awaitingCases here state offset)
  | compare {op dst left right} (instr_eq : here.instr = .compare op dst left right) :
    Tells cx here state (cx.binopOutputs here dst left right) state
  | branch {test left right offset} (instr_eq : here.instr = .branch test left right offset) :
    Tells cx here state (cx.testOutputs (cx.insn "if" here.index) test left (some right))
      (queued here state .branch (cx.insn "if" here.index))
  | branchZero {test left offset} (instr_eq : here.instr = .branchZero test left offset) :
    Tells cx here state (cx.testOutputs (cx.insn "if" here.index) test left none)
      (queued here state .branch (cx.insn "if" here.index))
  | arrayAccess {access kind value array position}
    (instr_eq : here.instr = .arrayAccess access kind value array position) :
    Tells cx here state (cx.arrayAccessOutputs here access value array position) state
  | instanceField {access kind value object index} (field : FieldSig)
    (instr_eq : here.instr = .instanceField access kind value object index) :
    Tells cx here state (cx.fieldOutputs value (some object))
      (cx.accessed here state access value (some object) field)
  | staticField {access kind value index} (field : FieldSig)
    (instr_eq : here.instr = .staticField access kind value index) :
    Tells cx here state (cx.fieldOutputs value none)
      (cx.accessed here state access value none field)
  | invoke {kind args method} (call : Call) (instr_eq : here.instr = .invoke kind args method)
    (kind_eq : call.kind = .ofInvoke kind) (wellFormed : call.WellFormed) :
    Tells cx here state
      (cx.callOutputs here (cx.nextInsn state call.callee.qualifiedName) call)
      (cx.invoked here state call.callee.qualifiedName)
  | unop {op dst src} (instr_eq : here.instr = .unop op dst src) :
    Tells cx here state (cx.unopOutputs here dst src) state
  | binop {op dst left right} (instr_eq : here.instr = .binop op dst left right) :
    Tells cx here state (cx.binopOutputs here dst left right) state
  | binopInPlace {op dst right} (instr_eq : here.instr = .binopInPlace op dst right) :
    Tells cx here state (cx.binopOutputs here dst dst right) state
  | binopLiteral {op dst left literal} (instr_eq : here.instr = .binopLiteral op dst left literal) :
    Tells cx here state (cx.binopLiteralOutputs here dst left) state
  | binopSmallLiteral {op dst left literal}
    (instr_eq : here.instr = .binopSmallLiteral op dst left literal) :
    Tells cx here state (cx.binopLiteralOutputs here dst left) state
  | invokePolymorphic {args method proto} (call : Call)
    (instr_eq : here.instr = .invokePolymorphic args method proto)
    (kind_eq : call.kind = .virtual) (wellFormed : call.WellFormed) :
    Tells cx here state
      (cx.polymorphicCallOutputs here (cx.nextInsn state call.callee.qualifiedName) call)
      (cx.invoked here state call.callee.qualifiedName)
  | invokeCustom {args callSite} (call : CustomCall)
    (instr_eq : here.instr = .invokeCustom args callSite) :
    Tells cx here state (cx.customCallOutputs here (cx.nextInsn state (siteKind call)) call)
      (cx.invoked here state (siteKind call))
  | methodHandle {dst handle} (sig : MethodSig)
    (instr_eq : here.instr = .constMethodHandle dst handle) :
    Tells cx here state (cx.methodHandleOutputs here dst sig) state
  | fieldHandle {dst handle} (sig : FieldSig)
    (instr_eq : here.instr = .constMethodHandle dst handle) :
    Tells cx here state (cx.fieldHandleOutputs here dst sig) state
  | constMethodType {dst index} (proto : Proto)
    (instr_eq : here.instr = .constMethodType dst index) :
    Tells cx here state (cx.methodTypeOutputs here dst proto) state
  | packedSwitchPayload {firstKey targets}
    (instr_eq : here.instr = .packedSwitchPayload firstKey targets) :
    Tells cx here state (cx.casesNotices here state)
      (cx.releasedCases here state .packed ((packedKeys firstKey targets.length).zip targets))
  | sparseSwitchPayload {keys targets} (instr_eq : here.instr = .sparseSwitchPayload keys targets) :
    Tells cx here state (cx.casesNotices here state)
      (cx.releasedCases here state .sparse (keys.zip targets))
  | arrayPayload {width values} (instr_eq : here.instr = .arrayPayload width values) :
    Tells cx here state
      (cx.payloadOutputs here width values (state.fills.waitingAt here.address))
      (releasedFills here state)
  | optimized {opcode units} (instr_eq : here.instr = .optimized opcode units) :
    Tells cx here state [.notice (.method cx.id (.optimizedOpcode opcode here.index))] state

variable {cx : MethodContext} {here : LocatedInstr}

section Planned

variable {state : MethodState} {action : MethodEmit Unit}
  (planned : cx.Planned here state.carry.result action)

/-- An action does what an instruction tells in a state. -/
def Fulfils (cx : MethodContext) (here : LocatedInstr) (state : MethodState)
    (action : MethodEmit Unit) : Prop :=
  ∃ outputs next, cx.Says action state () outputs next ∧ cx.Tells here state outputs next

include planned

theorem Planned.fulfils_transfer (family_eq : here.instr.family = .transfer) :
    cx.Fulfils here state action := by
  unfold Planned at planned
  cases instr_eq : here.instr with
  | nop =>
    simp only [instr_eq] at planned
    subst planned
    exact ⟨_, _, .pure () _, .nop instr_eq⟩
  | move =>
    simp only [instr_eq] at planned
    subst planned
    exact ⟨_, _, cx.says_writeMove .., .move instr_eq⟩
  | moveResult =>
    simp only [instr_eq] at planned
    obtain ⟨pending, result_eq, behind, rfl⟩ := planned
    exact ⟨_, _, cx.says_writeResult .., .moveResult pending instr_eq result_eq behind⟩
  | moveException =>
    simp only [instr_eq] at planned
    subst planned
    exact ⟨_, _, cx.says_writeCatch .., .moveException instr_eq⟩
  | const =>
    simp only [instr_eq] at planned
    subst planned
    exact ⟨_, _, cx.says_writeNarrowNumber .., .const instr_eq⟩
  | constWide =>
    simp only [instr_eq] at planned
    subst planned
    exact ⟨_, _, cx.says_writeNumber .., .constWide instr_eq⟩
  | optimized =>
    simp only [instr_eq] at planned
    subst planned
    exact ⟨_, _, .notice _, .optimized instr_eq⟩
  | unknown => simp only [instr_eq] at planned
  | _ =>
    rw [instr_eq] at family_eq
    cases family_eq

theorem Planned.fulfils_operation (family_eq : here.instr.family = .operation) :
    cx.Fulfils here state action := by
  unfold Planned at planned
  cases instr_eq : here.instr with
  | arrayLength =>
    simp only [instr_eq] at planned
    subst planned
    exact ⟨_, _, cx.says_writeUnop .., .arrayLength instr_eq⟩
  | compare =>
    simp only [instr_eq] at planned
    subst planned
    exact ⟨_, _, cx.says_writeBinop .., .compare instr_eq⟩
  | unop =>
    simp only [instr_eq] at planned
    subst planned
    exact ⟨_, _, cx.says_writeUnop .., .unop instr_eq⟩
  | binop =>
    simp only [instr_eq] at planned
    subst planned
    exact ⟨_, _, cx.says_writeBinop .., .binop instr_eq⟩
  | binopInPlace =>
    simp only [instr_eq] at planned
    subst planned
    exact ⟨_, _, cx.says_writeBinop .., .binopInPlace instr_eq⟩
  | binopLiteral =>
    simp only [instr_eq] at planned
    subst planned
    exact ⟨_, _, cx.says_writeBinopLiteral .., .binopLiteral instr_eq⟩
  | binopSmallLiteral =>
    simp only [instr_eq] at planned
    subst planned
    exact ⟨_, _, cx.says_writeBinopLiteral .., .binopSmallLiteral instr_eq⟩
  | arrayAccess =>
    simp only [instr_eq] at planned
    subst planned
    exact ⟨_, _, cx.says_writeArrayAccess .., .arrayAccess instr_eq⟩
  | _ =>
    rw [instr_eq] at family_eq
    cases family_eq

theorem Planned.fulfils_constant (family_eq : here.instr.family = .constant) :
    cx.Fulfils here state action := by
  unfold Planned at planned
  cases instr_eq : here.instr with
  | constString =>
    simp only [instr_eq] at planned
    obtain ⟨text, -, rfl⟩ := planned
    exact ⟨_, _, cx.says_writeString .., .constString text instr_eq⟩
  | constClass =>
    simp only [instr_eq] at planned
    obtain ⟨found, -, rfl⟩ := planned
    exact ⟨_, _, cx.says_writeClass .., .constClass _ instr_eq⟩
  | constMethodHandle =>
    simp only [instr_eq] at planned
    rcases planned with ⟨sig, rfl⟩ | ⟨sig, rfl⟩
    · exact ⟨_, _, cx.says_writeMethodHandle .., .methodHandle sig instr_eq⟩
    · exact ⟨_, _, cx.says_writeFieldHandle .., .fieldHandle sig instr_eq⟩
  | constMethodType =>
    simp only [instr_eq] at planned
    obtain ⟨proto, -, rfl⟩ := planned
    exact ⟨_, _, cx.says_writeMethodType .., .constMethodType proto instr_eq⟩
  | _ =>
    rw [instr_eq] at family_eq
    cases family_eq

theorem Planned.fulfils_object (family_eq : here.instr.family = .object) :
    cx.Fulfils here state action := by
  unfold Planned at planned
  cases instr_eq : here.instr with
  | newInstance =>
    simp only [instr_eq] at planned
    obtain ⟨found, -, rfl⟩ := planned
    exact ⟨_, _, cx.says_writeNewInstance .., .newInstance _ instr_eq⟩
  | newArray =>
    simp only [instr_eq] at planned
    obtain ⟨found, -, rfl⟩ := planned
    exact ⟨_, _, cx.says_writeNewArray .., .newArray found instr_eq⟩
  | filledNewArray =>
    simp only [instr_eq] at planned
    obtain ⟨found, -, rfl⟩ := planned
    exact ⟨_, _, cx.says_writeFilledArray .., .filledNewArray found instr_eq⟩
  | checkCast =>
    simp only [instr_eq] at planned
    obtain ⟨found, -, rfl⟩ := planned
    exact ⟨_, _, cx.says_writeCast .., .checkCast _ instr_eq⟩
  | instanceOf =>
    simp only [instr_eq] at planned
    obtain ⟨found, -, rfl⟩ := planned
    exact ⟨_, _, cx.says_writeInstanceOf .., .instanceOf _ instr_eq⟩
  | _ =>
    rw [instr_eq] at family_eq
    cases family_eq

theorem Planned.fulfils_control (family_eq : here.instr.family = .control) :
    cx.Fulfils here state action := by
  unfold Planned at planned
  cases instr_eq : here.instr with
  | returnVoid =>
    simp only [instr_eq] at planned
    subst planned
    exact ⟨_, _, cx.says_writeReturnVoid .., .returnVoid instr_eq⟩
  | returnValue =>
    simp only [instr_eq] at planned
    subst planned
    exact ⟨_, _, cx.says_writeReturn .., .returnValue instr_eq⟩
  | monitor =>
    simp only [instr_eq] at planned
    subst planned
    exact ⟨_, _, cx.says_writeMonitor .., .monitor instr_eq⟩
  | throw =>
    simp only [instr_eq] at planned
    subst planned
    exact ⟨_, _, cx.says_writeThrow .., .throw instr_eq⟩
  | goto =>
    simp only [instr_eq] at planned
    subst planned
    exact ⟨_, _, cx.says_writeGoto .., .goto instr_eq⟩
  | branch =>
    simp only [instr_eq] at planned
    subst planned
    exact ⟨_, _, cx.says_writeBranch .., .branch instr_eq⟩
  | branchZero =>
    simp only [instr_eq] at planned
    subst planned
    exact ⟨_, _, cx.says_writeBranch .., .branchZero instr_eq⟩
  | switch =>
    simp only [instr_eq] at planned
    subst planned
    exact ⟨_, _, cx.says_writeSwitch .., .switch instr_eq⟩
  | _ =>
    rw [instr_eq] at family_eq
    cases family_eq

theorem Planned.fulfils_member (family_eq : here.instr.family = .member) :
    cx.Fulfils here state action := by
  unfold Planned at planned
  cases instr_eq : here.instr with
  | instanceField =>
    simp only [instr_eq] at planned
    obtain ⟨field, rfl⟩ := planned
    exact ⟨_, _, cx.says_writeFieldAccess .., .instanceField field instr_eq⟩
  | staticField =>
    simp only [instr_eq] at planned
    obtain ⟨field, rfl⟩ := planned
    exact ⟨_, _, cx.says_writeFieldAccess .., .staticField field instr_eq⟩
  | invoke =>
    simp only [instr_eq] at planned
    obtain ⟨call, kind_eq, wellFormed, rfl⟩ := planned
    exact ⟨_, _, (cx.says_writeCall ..).bind_silent (.pure () _),
      .invoke call instr_eq kind_eq wellFormed⟩
  | invokePolymorphic =>
    simp only [instr_eq] at planned
    obtain ⟨call, kind_eq, wellFormed, rfl⟩ := planned
    exact ⟨_, _, cx.says_writePolymorphicCall ..,
      .invokePolymorphic call instr_eq kind_eq wellFormed⟩
  | invokeCustom =>
    simp only [instr_eq] at planned
    obtain ⟨call, rfl⟩ := planned
    exact ⟨_, _, cx.says_writeCustomCall .., .invokeCustom call instr_eq⟩
  | _ =>
    rw [instr_eq] at family_eq
    cases family_eq

theorem Planned.fulfils_table (family_eq : here.instr.family = .table) :
    cx.Fulfils here state action := by
  unfold Planned at planned
  cases instr_eq : here.instr with
  | fillArrayData =>
    simp only [instr_eq] at planned
    subst planned
    exact ⟨_, _, cx.says_writeFillArray .., .fillArrayData instr_eq⟩
  | packedSwitchPayload =>
    simp only [instr_eq] at planned
    subst planned
    exact ⟨_, _, cx.says_writeSwitchPayload .., .packedSwitchPayload instr_eq⟩
  | sparseSwitchPayload =>
    simp only [instr_eq] at planned
    subst planned
    exact ⟨_, _, cx.says_writeSwitchPayload .., .sparseSwitchPayload instr_eq⟩
  | arrayPayload =>
    simp only [instr_eq] at planned
    subst planned
    exact ⟨_, _, cx.says_writeArrayPayload .., .arrayPayload instr_eq⟩
  | _ =>
    rw [instr_eq] at family_eq
    cases family_eq

/-- A planned action does what its instruction tells. -/
theorem Planned.tells :
    ∃ outputs next, cx.Says action state () outputs next ∧ cx.Tells here state outputs next := by
  cases family_eq : here.instr.family with
  | transfer => exact planned.fulfils_transfer family_eq
  | operation => exact planned.fulfils_operation family_eq
  | constant => exact planned.fulfils_constant family_eq
  | object => exact planned.fulfils_object family_eq
  | control => exact planned.fulfils_control family_eq
  | member => exact planned.fulfils_member family_eq
  | table => exact planned.fulfils_table family_eq

end Planned

section Accesses

variable (here) {state next : MethodState} {outputs : List Output}

theorem accesses_resultTaken (producer : Producer) :
    (resultTaken state producer).accesses = state.accesses := by
  cases producer <;> rfl

theorem accesses_awaitingFill (array : Reg) (offset : Int) :
    (awaitingFill here state array offset).accesses = state.accesses := by
  unfold awaitingFill
  split
  · rfl
  · split <;> rfl

theorem accesses_awaitingCases (offset : Int) :
    (awaitingCases here state offset).accesses = state.accesses := by
  unfold awaitingCases
  split <;> rfl

variable {here}

/-- A field access is queued by an instruction that accesses a field, and by no other. -/
theorem Tells.accesses (told : cx.Tells here state outputs next) :
    (∃ access value object field, outputs = cx.fieldOutputs value object ∧
        next = cx.accessed here state access value object field) ∨
      next.accesses = state.accesses := by
  cases told with
  | instanceField field => exact .inl ⟨_, _, _, field, rfl, rfl⟩
  | staticField field => exact .inl ⟨_, _, _, field, rfl, rfl⟩
  | moveResult pending => exact .inr (accesses_resultTaken pending.producer)
  | fillArrayData => exact .inr (accesses_awaitingFill here _ _)
  | switch => exact .inr (accesses_awaitingCases here _)
  | _ => exact .inr rfl

/-- An instruction uses up one number of a kind, or none. -/
theorem Tells.counters (told : cx.Tells here state outputs next) :
    next.counters = state.counters ∨ ∃ kind, next.counters = state.counters.advance kind := by
  cases told with
  | newInstance name => exact .inr ⟨name, rfl⟩
  | newArray found => exact .inr ⟨found.sourceName, rfl⟩
  | @throw exception => exact .inr ⟨Identifier.throwKind exception.toString, rfl⟩
  | @instanceField access _ _ _ _ field | @staticField access _ _ _ field =>
    exact .inr ⟨fieldKind access field, rfl⟩
  | invoke call | invokePolymorphic call => exact .inr ⟨call.callee.qualifiedName, rfl⟩
  | invokeCustom call => exact .inr ⟨siteKind call, rfl⟩
  | moveResult pending =>
    cases pending.producer with
    | invocation insn => exact .inl rfl
    | filledArray type elements => exact .inr ⟨type, rfl⟩
  | fillArrayData =>
    unfold awaitingFill
    split
    · exact .inl rfl
    · split <;> exact .inl rfl
  | switch =>
    unfold awaitingCases
    split <;> exact .inl rfl
  | _ => exact .inl rfl

end Accesses

end DalvikFacts.MethodContext
