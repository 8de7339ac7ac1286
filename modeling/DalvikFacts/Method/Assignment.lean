import DalvikFacts.Method.State
import DalvikFacts.StatementType

/-!
# Assignments

The facts of instructions that assign a variable from other variables or from constants, and of
the other instructions without effect on the flow of control.
-/

namespace DalvikFacts.MethodContext

/-- The operand positions of a statement. -/
def leftOperand : String := "1"

/-- The position of a second operand. -/
def rightOperand : String := "2"

/-- Emits the type of a statement. -/
def writeStatementType (cx : MethodContext) (here : LocatedInstr) : MethodEmit Unit :=
  match here.instr.statementType? with
  | some type =>
    Emit.row .statementType [cx.assignInsn here.index, type.operand.name, type.result.name]
  | none => cx.notice (.noStatementType here.instr)

/-- A move between registers. -/
def writeMove (cx : MethodContext) (here : LocatedInstr) (dst src : Reg) : MethodEmit Unit := do
  let src ← cx.use src
  let dst ← cx.use dst
  Emit.row .assignLocal [cx.assignInsn here.index, toString here.index, src, dst, cx.id]
  cx.writeStatementType here

/-- A number loaded into a register. -/
def writeNumber (cx : MethodContext) (here : LocatedInstr) (dst : Reg) (value : Int) :
    MethodEmit Unit := do
  let dst ← cx.use dst
  Emit.row .assignNumConstant
    [cx.assignInsn here.index, toString here.index, toString value, dst, cx.id]
  cx.writeStatementType here

/-- A 32 bit number loaded into a register; it may be the size of an array. -/
def writeNarrowNumber (cx : MethodContext) (here : LocatedInstr) (dst : Reg) (value : Int) :
    MethodEmit Unit := do
  modify (·.withCarry (·.loadNarrow here.index dst value))
  cx.writeNumber here dst value

/-- A constant object loaded into a register. -/
def writeConstant (cx : MethodContext) (here : LocatedInstr) (dst : Reg) (heap : String) :
    MethodEmit Unit := do
  let dst ← cx.use dst
  cx.writeObject here heap dst

/-- A string loaded into a register. -/
def writeString (cx : MethodContext) (here : LocatedInstr) (dst : Reg) (text : String) :
    MethodEmit Unit := do
  let heap ← Emit.stringConstant text
  cx.writeConstant here dst heap

/-- A class loaded into a register. -/
def writeClass (cx : MethodContext) (here : LocatedInstr) (dst : Reg) (cls : String) :
    MethodEmit Unit := do
  let heap := Identifier.classConstant cls
  Emit.row .classHeap [heap, cls]
  cx.writeConstant here dst heap

/-- A handle of a method loaded into a register. -/
def writeMethodHandle (cx : MethodContext) (here : LocatedInstr) (dst : Reg) (sig : MethodSig) :
    MethodEmit Unit := do
  let heap := Identifier.methodHandleConstant sig.id
  Emit.row .methodHandleConstant
    [heap, sig.id, sig.returnType, Identifier.commaList sig.params, toString sig.arity]
  cx.writeConstant here dst heap

/-- A handle of a field loaded into a register. -/
def writeFieldHandle (cx : MethodContext) (here : LocatedInstr) (dst : Reg) (sig : FieldSig) :
    MethodEmit Unit := do
  cx.notice (.fieldHandle sig.id)
  cx.writeConstant here dst (Identifier.methodHandleConstant sig.id)

/-- Emits one row for each text, with its position. -/
def writePositioned {σ : Type} (relation : Relation) (key : String) (texts : List String) :
    Emit σ Unit :=
  texts.zipIdx.forM fun (text, position) => Emit.row relation [key, toString position, text]

/-- A method type loaded into a register. -/
def writeMethodType (cx : MethodContext) (here : LocatedInstr) (dst : Reg) (proto : Proto) :
    MethodEmit Unit := do
  let params := proto.params.map Descriptor.sourceName
  let returnType := proto.returnType.sourceName
  let heap := Identifier.methodTypeConstant params returnType
  writePositioned .methodTypeConstantParam heap params
  Emit.row .methodTypeConstant
    [heap, toString params.length, returnType, Identifier.commaList params]
  cx.writeConstant here dst heap

/-- A monitor entered or left. -/
def writeMonitor (cx : MethodContext) (here : LocatedInstr) (action : MonitorAction)
    (object : Reg) : MethodEmit Unit := do
  let (relation, kind) := match action with
    | .enter => (Relation.enterMonitor, "enter-monitor")
    | .exit => (Relation.exitMonitor, "exit-monitor")
  let object ← cx.use object
  Emit.row relation [cx.insn kind here.index, toString here.index, object, cx.id]

/-- A register cast to a type. -/
def writeCast (cx : MethodContext) (here : LocatedInstr) (object : Reg) (type : String) :
    MethodEmit Unit := do
  let object ← cx.use object
  Emit.row .assignCast
    [cx.assignInsn here.index, toString here.index, object, object, type, cx.id]

/-- A type test. -/
def writeInstanceOf (cx : MethodContext) (here : LocatedInstr) (dst object : Reg)
    (type : String) : MethodEmit Unit := do
  let object ← cx.use object
  let dst ← cx.use dst
  Emit.row .assignInstanceOf
    [cx.assignInsn here.index, toString here.index, object, dst, type, cx.id]

/-- A unary operation. -/
def writeUnop (cx : MethodContext) (here : LocatedInstr) (dst src : Reg) : MethodEmit Unit := do
  let insn := cx.assignInsn here.index
  let src ← cx.use src
  let dst ← cx.use dst
  Emit.row .assignUnop [insn, toString here.index, dst, cx.id]
  Emit.row .assignOperFrom [insn, leftOperand, src]
  cx.writeStatementType here

/-- A binary operation on two registers. -/
def writeBinop (cx : MethodContext) (here : LocatedInstr) (dst left right : Reg) :
    MethodEmit Unit := do
  let insn := cx.assignInsn here.index
  let left ← cx.use left
  let right ← cx.use right
  let dst ← cx.use dst
  Emit.row .assignBinop [insn, toString here.index, dst, cx.id]
  Emit.row .assignOperFrom [insn, leftOperand, left]
  Emit.row .assignOperFrom [insn, rightOperand, right]
  cx.writeStatementType here

/-- A binary operation of a register and a literal, which has no row of its own. -/
def writeBinopLiteral (cx : MethodContext) (here : LocatedInstr) (dst left : Reg) :
    MethodEmit Unit := do
  let insn := cx.assignInsn here.index
  let left ← cx.use left
  let dst ← cx.use dst
  Emit.row .assignBinop [insn, toString here.index, dst, cx.id]
  Emit.row .assignOperFrom [insn, leftOperand, left]
  cx.writeStatementType here

/-- An array element read or written. -/
def writeArrayAccess (cx : MethodContext) (here : LocatedInstr) (access : Access)
    (value array position : Reg) : MethodEmit Unit := do
  let relation := match access with
    | .load => Relation.loadArrayIndex
    | .store => Relation.storeArrayIndex
  let insn := cx.assignInsn here.index
  let value ← cx.use value
  let array ← cx.use array
  let position ← cx.use position
  Emit.row relation [insn, toString here.index, value, array, cx.id]
  Emit.row .arrayInsnIndex [insn, position]

/-- The relation of a field access. -/
def fieldRelation (access : Access) (isInstance : Bool) : Relation :=
  match access, isInstance with
  | .load, true => .loadInstanceField
  | .load, false => .loadStaticField
  | .store, true => .storeInstanceField
  | .store, false => .storeStaticField

/-- The kind of the instructions that access a field. -/
def fieldKind (access : Access) (field : FieldSig) : String :=
  match access with
  | .load => "read-field-" ++ field.name
  | .store => "write-field-" ++ field.name

/-- A field read or written: its row has to wait for the declaring class. -/
def writeFieldAccess (cx : MethodContext) (here : LocatedInstr) (access : Access) (value : Reg)
    (object : Option Reg) (field : FieldSig) : MethodEmit Unit := do
  let insn ← cx.numberedInsn (fieldKind access field)
  let value ← cx.use value
  let base ← object.mapM cx.use
  modify fun state =>
    { state with
      accesses := state.accesses.push
        { relation := fieldRelation access object.isSome, insn, index := here.index,
          var := value, base, field, method := cx.id } }

end DalvikFacts.MethodContext
