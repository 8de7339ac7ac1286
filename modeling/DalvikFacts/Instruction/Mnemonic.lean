import DalvikFacts.Instruction.Basic

/-!
# Mnemonics

The names of instructions, put together from the words of their family and of its variations.
-/

namespace DalvikFacts

/-- What a kind of value adds to the name of a move. -/
def MoveKind.suffix : MoveKind → String
  | narrow => ""
  | wide => "-wide"
  | object => "-object"

/-- All kinds of moves. -/
def MoveKind.all : List MoveKind := [narrow, wide, object]

/-- What the widths of its registers add to the name of a move. -/
def MoveForm.suffix : MoveForm → String
  | short => ""
  | from16 => "/from16"
  | full => "/16"

/-- All forms of moves. -/
def MoveForm.all : List MoveForm := [short, from16, full]

/-- The name of a 32 bit constant. -/
def NarrowForm.mnemonic : NarrowForm → String
  | four => "const/4"
  | sixteen => "const/16"
  | full => "const"
  | high => "const/high16"

/-- The name of a 64 bit constant. -/
def WideForm.mnemonic : WideForm → String
  | sixteen => "const-wide/16"
  | thirtyTwo => "const-wide/32"
  | full => "const-wide"
  | high => "const-wide/high16"

/-- The name of a string constant. -/
def stringMnemonic (jumbo : Bool) : String :=
  if jumbo then "const-string/jumbo" else "const-string"

/-- The name of a monitor instruction. -/
def MonitorAction.mnemonic : MonitorAction → String
  | enter => "monitor-enter"
  | exit => "monitor-exit"

/-- The name of an unconditional branch. -/
def GotoForm.mnemonic : GotoForm → String
  | eight => "goto"
  | sixteen => "goto/16"
  | thirtyTwo => "goto/32"

/-- The name of a switch. -/
def SwitchKind.mnemonic : SwitchKind → String
  | packed => "packed-switch"
  | sparse => "sparse-switch"

/-- The name of a three-way comparison. -/
def CompareOp.mnemonic : CompareOp → String
  | lessFloat => "cmpl-float"
  | greaterFloat => "cmpg-float"
  | lessDouble => "cmpl-double"
  | greaterDouble => "cmpg-double"
  | long => "cmp-long"

/-- All three-way comparisons. -/
def CompareOp.all : List CompareOp := [lessFloat, greaterFloat, lessDouble, greaterDouble, long]

/-- The name of a conditional branch on two registers. -/
def TestOp.mnemonic : TestOp → String
  | eq => "if-eq"
  | ne => "if-ne"
  | lt => "if-lt"
  | ge => "if-ge"
  | gt => "if-gt"
  | le => "if-le"

/-- The name of a conditional branch on one register. -/
def TestOp.zeroMnemonic (test : TestOp) : String :=
  test.mnemonic ++ "z"

/-- All tests. -/
def TestOp.all : List TestOp := [eq, ne, lt, ge, gt, le]

/-- What a kind of value adds to the name of an access. -/
def SlotKind.suffix : SlotKind → String
  | plain => ""
  | wide => "-wide"
  | object => "-object"
  | boolean => "-boolean"
  | byte => "-byte"
  | char => "-char"
  | short => "-short"

/-- All kinds of values of accesses. -/
def SlotKind.all : List SlotKind := [plain, wide, object, boolean, byte, char, short]

/-- The verb of an access. -/
def Access.verb : Access → String
  | load => "get"
  | store => "put"

/-- Both accesses. -/
def Access.all : List Access := [load, store]

/-- The name of an array access. -/
def Access.arrayMnemonic (access : Access) (kind : SlotKind) : String :=
  "a" ++ access.verb ++ kind.suffix

/-- The name of an instance field access. -/
def Access.instanceMnemonic (access : Access) (kind : SlotKind) : String :=
  "i" ++ access.verb ++ kind.suffix

/-- The name of a static field access. -/
def Access.staticMnemonic (access : Access) (kind : SlotKind) : String :=
  "s" ++ access.verb ++ kind.suffix

/-- The name of an invocation with listed operands. -/
def InvokeKind.mnemonic : InvokeKind → String
  | virtual => "invoke-virtual"
  | super => "invoke-super"
  | direct => "invoke-direct"
  | static => "invoke-static"
  | interface => "invoke-interface"

/-- All kinds of invocations. -/
def InvokeKind.all : List InvokeKind := [virtual, super, direct, static, interface]

/-- What a range of operands adds to the name of an instruction. -/
def Operands.suffix : Operands → String
  | list _ => ""
  | range _ => "/range"

/-- The name of a unary operation. -/
def Unop.mnemonic : Unop → String
  | negInt => "neg-int"
  | notInt => "not-int"
  | negLong => "neg-long"
  | notLong => "not-long"
  | negFloat => "neg-float"
  | negDouble => "neg-double"
  | intToLong => "int-to-long"
  | intToFloat => "int-to-float"
  | intToDouble => "int-to-double"
  | longToInt => "long-to-int"
  | longToFloat => "long-to-float"
  | longToDouble => "long-to-double"
  | floatToInt => "float-to-int"
  | floatToLong => "float-to-long"
  | floatToDouble => "float-to-double"
  | doubleToInt => "double-to-int"
  | doubleToLong => "double-to-long"
  | doubleToFloat => "double-to-float"
  | intToByte => "int-to-byte"
  | intToChar => "int-to-char"
  | intToShort => "int-to-short"

/-- All unary operations. -/
def Unop.all : List Unop :=
  [negInt, notInt, negLong, notLong, negFloat, negDouble, intToLong, intToFloat, intToDouble,
    longToInt, longToFloat, longToDouble, floatToInt, floatToLong, floatToDouble, doubleToInt,
    doubleToLong, doubleToFloat, intToByte, intToChar, intToShort]

/-- The word of an operator on integers. -/
def IntegerOp.word : IntegerOp → String
  | add => "add"
  | sub => "sub"
  | mul => "mul"
  | div => "div"
  | rem => "rem"
  | and => "and"
  | or => "or"
  | xor => "xor"
  | shl => "shl"
  | shr => "shr"
  | ushr => "ushr"

/-- All operators on integers. -/
def IntegerOp.all : List IntegerOp := [add, sub, mul, div, rem, and, or, xor, shl, shr, ushr]

/-- The word of an operator on floating point numbers. -/
def FloatingOp.word : FloatingOp → String
  | add => "add"
  | sub => "sub"
  | mul => "mul"
  | div => "div"
  | rem => "rem"

/-- All operators on floating point numbers. -/
def FloatingOp.all : List FloatingOp := [add, sub, mul, div, rem]

/-- The name of a binary operation on two registers. -/
def Binop.mnemonic : Binop → String
  | int op => op.word ++ "-int"
  | long op => op.word ++ "-long"
  | float op => op.word ++ "-float"
  | double op => op.word ++ "-double"

/-- The name of a binary operation whose destination is its first operand. -/
def Binop.inPlaceMnemonic (op : Binop) : String :=
  op.mnemonic ++ "/2addr"

/-- All binary operations on two registers. -/
def Binop.all : List Binop :=
  IntegerOp.all.map int ++ IntegerOp.all.map long ++ FloatingOp.all.map float ++
    FloatingOp.all.map double

/-- The word of an operator with a literal. -/
def LiteralOp.word : LiteralOp → String
  | add => "add"
  | rsub => "rsub"
  | mul => "mul"
  | div => "div"
  | rem => "rem"
  | and => "and"
  | or => "or"
  | xor => "xor"

/-- The name of a binary operation with a 16 bit literal; reverse subtraction has no suffix. -/
def LiteralOp.mnemonic (op : LiteralOp) : String :=
  op.word ++ "-int" ++ (if op = rsub then "" else "/lit16")

/-- All operators with a literal. -/
def LiteralOp.all : List LiteralOp := [add, rsub, mul, div, rem, and, or, xor]

/-- The word of a shift. -/
def ShiftOp.word : ShiftOp → String
  | shl => "shl"
  | shr => "shr"
  | ushr => "ushr"

/-- All shifts. -/
def ShiftOp.all : List ShiftOp := [shl, shr, ushr]

/-- The name of a binary operation with an 8 bit literal. -/
def SmallLiteralOp.mnemonic : SmallLiteralOp → String
  | common op => op.word ++ "-int/lit8"
  | shift op => op.word ++ "-int/lit8"

/-- All binary operations with an 8 bit literal. -/
def SmallLiteralOp.all : List SmallLiteralOp :=
  LiteralOp.all.map common ++ ShiftOp.all.map shift

namespace Instr

/-- The name of an instruction. -/
def mnemonic : Instr → String
  | nop => "nop"
  | move kind form _ _ => "move" ++ kind.suffix ++ form.suffix
  | moveResult kind _ => "move-result" ++ kind.suffix
  | moveException _ => "move-exception"
  | returnVoid => "return-void"
  | returnValue kind _ => "return" ++ kind.suffix
  | const form _ _ => form.mnemonic
  | constWide form _ _ => form.mnemonic
  | constString jumbo _ _ => stringMnemonic jumbo
  | constClass _ _ => "const-class"
  | monitor action _ => action.mnemonic
  | checkCast _ _ => "check-cast"
  | instanceOf _ _ _ => "instance-of"
  | arrayLength _ _ => "array-length"
  | newInstance _ _ => "new-instance"
  | newArray _ _ _ => "new-array"
  | filledNewArray elements _ => "filled-new-array" ++ elements.suffix
  | fillArrayData _ _ => "fill-array-data"
  | throw _ => "throw"
  | goto form _ => form.mnemonic
  | switch kind _ _ => kind.mnemonic
  | compare op _ _ _ => op.mnemonic
  | branch test _ _ _ => test.mnemonic
  | branchZero test _ _ => test.zeroMnemonic
  | arrayAccess access kind _ _ _ => access.arrayMnemonic kind
  | instanceField access kind _ _ _ => access.instanceMnemonic kind
  | staticField access kind _ _ => access.staticMnemonic kind
  | invoke kind args _ => kind.mnemonic ++ args.suffix
  | unop op _ _ => op.mnemonic
  | binop op _ _ _ => op.mnemonic
  | binopInPlace op _ _ => op.inPlaceMnemonic
  | binopLiteral op _ _ _ => op.mnemonic
  | binopSmallLiteral op _ _ _ => op.mnemonic
  | invokePolymorphic args _ _ => "invoke-polymorphic" ++ args.suffix
  | invokeCustom args _ => "invoke-custom" ++ args.suffix
  | constMethodHandle _ _ => "const-method-handle"
  | constMethodType _ _ => "const-method-type"
  | packedSwitchPayload _ _ => "packed-switch-payload"
  | sparseSwitchPayload _ _ => "sparse-switch-payload"
  | arrayPayload _ _ => "fill-array-data-payload"
  | optimized _ _ => "odex-only"
  | unknown _ _ => "unknown"

/-- A byte in hexadecimal, with two digits. -/
def byteText (byte : Nat) : String :=
  "0x" ++ String.ofList [Nat.digitChar (byte / 16), Nat.digitChar (byte % 16)]

/-- The text of an instruction: its name, and its opcode when the name does not tell it. -/
protected def toString (instr : Instr) : String :=
  match instr with
  | optimized opcode _ | unknown opcode _ => instr.mnemonic ++ " (" ++ byteText opcode ++ ")"
  | _ => instr.mnemonic

instance : ToString Instr := ⟨Instr.toString⟩

end Instr
end DalvikFacts
