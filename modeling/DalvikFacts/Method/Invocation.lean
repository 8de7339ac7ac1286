import DalvikFacts.Method.Assignment

/-!
# Invocations

The facts of invocations.  The registers of an invocation are split into the receiver and one
register for each parameter, the first one of a pair when the parameter is wide.
-/

namespace DalvikFacts

/-- How facts tell invocations apart. -/
inductive CallKind
  | static
  | special
  | virtual
  | super
  deriving DecidableEq

namespace CallKind

/-- The kind of an invocation. -/
def ofInvoke : InvokeKind → CallKind
  | .virtual | .interface => .virtual
  | .super => .super
  | .direct => .special
  | .static => .static

/-- The relation of an invocation. -/
def relation : CallKind → Relation
  | static => .staticMethodInvocation
  | special => .specialMethodInvocation
  | virtual => .virtualMethodInvocation
  | super => .superMethodInvocation

/-- Whether an invocation has a receiver. -/
def hasReceiver (kind : CallKind) : Bool :=
  kind != static

end CallKind

/-- The registers of an invocation. -/
structure Arguments where
  receiver : Option Reg
  params : List Reg
  deriving DecidableEq

namespace Arguments

/-- The first register of each parameter. -/
def firstRegisters : List Reg → List Descriptor → List Reg
  | reg :: regs, type :: types => reg :: firstRegisters (regs.drop (type.width - 1)) types
  | _, _ => []

/-- Splits the registers behind the receiver; there may be more than the parameters take. -/
def ofSlots (method : String) (receiver : Option Reg) (slots : List Reg)
    (params : List Descriptor) : Except ExtractionError Arguments :=
  if slots.length < Descriptor.totalWidth params then
    .error (.missingArguments method (Descriptor.totalWidth params) slots.length)
  else .ok ⟨receiver, firstRegisters slots params⟩

/-- Splits the registers of an invocation inside of a method. -/
def split (method : String) (regs : List Reg) (params : List Descriptor) (hasReceiver : Bool) :
    Except ExtractionError Arguments :=
  if hasReceiver then
    match regs with
    | [] => .error (.missingReceiver method)
    | receiver :: slots => ofSlots method (some receiver) slots params
  else ofSlots method none regs params

end Arguments

/-- An invocation with everything it refers to. -/
structure Call where
  kind : CallKind
  callee : MethodSig
  arguments : Arguments

/-- An invocation through a call site, with everything it refers to. -/
structure CustomCall where
  name : String
  proto : Proto
  bootstrap : String
  handleKind : HandleKind
  arguments : Arguments

namespace MethodContext

/-- Emits the registers of the parameters, counted from the given position. -/
def writeParams (cx : MethodContext) (insn : String) (first : Nat) (params : List Reg) :
    MethodEmit Unit :=
  (params.zipIdx first).forM fun (reg, position) => do
    let var ← cx.use reg
    Emit.row .actualParam [toString position, insn, var]

/-- Emits the receiver of an invocation, and returns its variable. -/
def writeReceiver (cx : MethodContext) (insn : String) (receiver : Reg) : MethodEmit String := do
  let var ← cx.use receiver
  Emit.row .actualParam ["0", insn, var]
  return var

/-- Emits the line of an invocation, if it is known. -/
def writeInvocationLine (cx : MethodContext) (here : LocatedInstr) (insn : String) :
    MethodEmit Unit :=
  match cx.line? here with
  | some line => Emit.row .methodInvocationLine [insn, toString line]
  | none => pure ()

/-- An invocation; its result can be moved out.  Returns its identifier. -/
def writeCall (cx : MethodContext) (here : LocatedInstr) (call : Call) : MethodEmit String := do
  let insn ← cx.numberedInsn call.callee.qualifiedName
  let receiver ← call.arguments.receiver.mapM (cx.writeReceiver insn)
  cx.writeParams insn receiver.toList.length call.arguments.params
  cx.writeInvocationLine here insn
  Emit.row call.kind.relation
    ([insn, toString here.index, call.callee.id] ++ receiver.toList ++ [cx.id])
  modify (·.withCarry (·.produce here.index (.invocation insn)))
  return insn

/-- An invocation of a method whose parameters are given at the invocation. -/
def writePolymorphicCall (cx : MethodContext) (here : LocatedInstr) (call : Call) :
    MethodEmit Unit := do
  let insn ← cx.writeCall here call
  Emit.row .polymorphicInvocation [insn, call.callee.name]

/-- An invocation through a call site; its result can be moved out. -/
def writeCustomCall (cx : MethodContext) (here : LocatedInstr) (call : CustomCall) :
    MethodEmit Unit := do
  let insn ← cx.numberedInsn ("invokedynamic " ++ call.name)
  cx.writeParams insn 0 call.arguments.params
  let params := call.proto.params.map Descriptor.sourceName
  let returnType := call.proto.returnType.sourceName
  Emit.row .dynamicMethodInvocation
    [insn, toString here.index, call.bootstrap, call.name, returnType, toString params.length,
      Identifier.parenthesized params, toString call.handleKind.referenceKind, cx.id]
  writePositioned .dynamicMethodInvocationParamType insn params
  let _ ← Emit.stringConstant call.name
  let _ ← Emit.stringConstant (returnType ++ Identifier.parenthesized params)
  modify (·.withCarry (·.produce here.index (.invocation insn)))

end MethodContext
end DalvikFacts
