import DalvikFacts.Instruction.Mnemonic
import DalvikFacts.Json.Decoder

/-!
# Decoding instructions

An instruction is an object with its name under `op` and its operands under `args`: nothing, one
operand by itself, or an array of exactly as many operands as the instruction takes.  It may also
be the array of its name, as a text, and its operands.  The names follow from the mnemonics.
-/

namespace DalvikFacts

/-- Decodes the number of a register. -/
def Reg.decode : Decoder Reg :=
  (Decoder.unsigned 16).map fun number => ⟨UInt16.ofNat number⟩

/-- Decodes a list of registers. -/
def Reg.decodeList : Decoder (List Reg) :=
  Decoder.list Reg.decode

/-- Decodes a range of registers. -/
def RegRange.decode : Decoder RegRange :=
  Decoder.record ["first", "count"] fun fields => do
    return {
      first := ← fields.required "first" Reg.decode
      count := UInt16.ofNat (← fields.required "count" (Decoder.unsigned 16)) }

/-- Decodes a position in a table. -/
def decodeIndex : Decoder Nat :=
  Decoder.unsigned 64

namespace Instr

/-- Decodes listed operands. -/
def decodeListed : Decoder Operands :=
  Reg.decodeList.map .list

/-- Decodes a range of operands. -/
def decodeRanged : Decoder Operands :=
  RegRange.decode.map .range

/-- Both ways to give operands, with what they add to a name. -/
def operandForms : List (String × Decoder Operands) :=
  [("", decodeListed), ("/range", decodeRanged)]

/-- The name of an instruction in containers: its mnemonic with slashes left out before digits and
turned into dashes elsewhere. -/
def opName (mnemonic : String) : String :=
  let rec go : List Char → List Char
    | '/' :: c :: rest => if c.isDigit then c :: go rest else '-' :: c :: go rest
    | c :: rest => c :: go rest
    | [] => []
  String.ofList (go mnemonic.toList)

/-- An entry of the instruction table: a mnemonic, and how operands make the instruction. -/
abbrev Form := String × (Decoder.Variant → Option Instr)

/-- An instruction without operands. -/
def noOperand (mnemonic : String) (instr : Instr) : Form :=
  (mnemonic, fun variant => variant.empty instr)

/-- An instruction with one operand. -/
def oneOperand {α : Type} (mnemonic : String) (make : α → Instr) (a : Decoder α) : Form :=
  (mnemonic, fun variant => variant.holding (a.map make))

/-- An instruction with two operands. -/
def twoOperands {α β : Type} (mnemonic : String) (make : α → β → Instr) (a : Decoder α)
    (b : Decoder β) : Form :=
  (mnemonic, fun variant => variant.holding (Decoder.pair make a b))

/-- An instruction with three operands. -/
def threeOperands {α β γ : Type} (mnemonic : String) (make : α → β → γ → Instr) (a : Decoder α)
    (b : Decoder β) (c : Decoder γ) : Form :=
  (mnemonic, fun variant => variant.holding (Decoder.triple make a b c))

/-- Moves, results and returns. -/
def moveForms : List Form :=
  let reg := Reg.decode
  (MoveKind.all.flatMap fun kind => MoveForm.all.map fun form =>
    twoOperands ("move" ++ kind.suffix ++ form.suffix) (move kind form) reg reg) ++
  (MoveKind.all.map fun kind => oneOperand ("move-result" ++ kind.suffix) (moveResult kind) reg) ++
  (MoveKind.all.map fun kind => oneOperand ("return" ++ kind.suffix) (returnValue kind) reg) ++
  [noOperand "nop" nop, oneOperand "move-exception" moveException reg,
    noOperand "return-void" returnVoid]

/-- Constants. -/
def constantForms : List Form :=
  let reg := Reg.decode
  let narrow (form : NarrowForm) (bits : Nat) : Form :=
    twoOperands form.mnemonic (const form) reg (Decoder.signed bits)
  let wide (form : WideForm) (bits : Nat) : Form :=
    twoOperands form.mnemonic (constWide form) reg (Decoder.signed bits)
  [narrow .four 8, narrow .sixteen 16, narrow .full 32, narrow .high 16,
    wide .sixteen 16, wide .thirtyTwo 32, wide .full 64, wide .high 16] ++
  ([false, true].map fun jumbo =>
    twoOperands (stringMnemonic jumbo) (constString jumbo) reg decodeIndex) ++
  [twoOperands "const-class" constClass reg decodeIndex,
    twoOperands "const-method-handle" constMethodHandle reg decodeIndex,
    twoOperands "const-method-type" constMethodType reg decodeIndex]

/-- Monitors, casts and allocations. -/
def objectForms : List Form :=
  let reg := Reg.decode
  ([MonitorAction.enter, .exit].map fun action =>
    oneOperand action.mnemonic (monitor action) reg) ++
  [twoOperands "check-cast" checkCast reg decodeIndex,
    threeOperands "instance-of" instanceOf reg reg decodeIndex,
    twoOperands "array-length" arrayLength reg reg,
    twoOperands "new-instance" newInstance reg decodeIndex,
    threeOperands "new-array" newArray reg reg decodeIndex,
    twoOperands "fill-array-data" fillArrayData reg (Decoder.signed 32)] ++
  (operandForms.map fun form =>
    twoOperands ("filled-new-array" ++ form.1) filledNewArray form.2 decodeIndex)

/-- Branches and comparisons. -/
def controlForms : List Form :=
  let reg := Reg.decode
  let jump (form : GotoForm) (bits : Nat) : Form :=
    oneOperand form.mnemonic (goto form) (Decoder.signed bits)
  [oneOperand "throw" throw reg, jump .eight 8, jump .sixteen 16, jump .thirtyTwo 32] ++
  ([SwitchKind.packed, .sparse].map fun kind =>
    twoOperands kind.mnemonic (switch kind) reg (Decoder.signed 32)) ++
  (CompareOp.all.map fun op => threeOperands op.mnemonic (compare op) reg reg reg) ++
  (TestOp.all.map fun test =>
    threeOperands test.mnemonic (branch test) reg reg (Decoder.signed 16)) ++
  (TestOp.all.map fun test =>
    twoOperands test.zeroMnemonic (branchZero test) reg (Decoder.signed 16))

/-- Array and field accesses. -/
def accessForms : List Form :=
  let reg := Reg.decode
  Access.all.flatMap fun access => SlotKind.all.flatMap fun kind =>
    [threeOperands (access.arrayMnemonic kind) (arrayAccess access kind) reg reg reg,
      threeOperands (access.instanceMnemonic kind) (instanceField access kind) reg reg decodeIndex,
      twoOperands (access.staticMnemonic kind) (staticField access kind) reg decodeIndex]

/-- Invocations. -/
def invokeForms : List Form :=
  operandForms.flatMap fun form =>
    (InvokeKind.all.map fun kind =>
      twoOperands (kind.mnemonic ++ form.1) (invoke kind) form.2 decodeIndex) ++
    [threeOperands ("invoke-polymorphic" ++ form.1) invokePolymorphic form.2 decodeIndex
        decodeIndex,
      twoOperands ("invoke-custom" ++ form.1) invokeCustom form.2 decodeIndex]

/-- Unary and binary operations. -/
def operationForms : List Form :=
  let reg := Reg.decode
  (Unop.all.map fun op => twoOperands op.mnemonic (unop op) reg reg) ++
  (Binop.all.map fun op => threeOperands op.mnemonic (binop op) reg reg reg) ++
  (Binop.all.map fun op => twoOperands op.inPlaceMnemonic (binopInPlace op) reg reg) ++
  (LiteralOp.all.map fun op =>
    threeOperands op.mnemonic (binopLiteral op) reg reg (Decoder.signed 16)) ++
  (SmallLiteralOp.all.map fun op =>
    threeOperands op.mnemonic (binopSmallLiteral op) reg reg (Decoder.signed 8))

/-- Data and opcodes outside of the standard set. -/
def dataForms : List Form :=
  let keys := Decoder.list (Decoder.signed 32)
  [twoOperands "packed-switch-payload" packedSwitchPayload (Decoder.signed 32) keys,
    twoOperands "sparse-switch-payload" sparseSwitchPayload keys keys,
    twoOperands "fill-array-data-payload" arrayPayload (Decoder.unsigned 16)
      (Decoder.list (Decoder.signed 64)),
    twoOperands "optimized" optimized (Decoder.unsigned 8) (Decoder.unsigned 16),
    twoOperands "unknown" unknown (Decoder.unsigned 8) (Decoder.unsigned 16)]

/-- How the operands of each instruction are read, by its name in containers. -/
def forms : List Form :=
  (moveForms ++ constantForms ++ objectForms ++ controlForms ++ accessForms ++ invokeForms ++
    operationForms ++ dataForms).map fun form => (opName form.1, form.2)

/-- The name of an instruction in an object: a text, or an object with the text as only key and no
content. -/
def decodeName : Decoder String :=
  Decoder.variant fun variant => variant.empty variant.name

/-- An instruction with a name and operands. -/
def ofParts? (depth : Nat) (name : String) (args : Option Json) : Option Instr := do
  (← forms.lookup name) ⟨name, depth, args⟩

/-- The operands given by members, absent when they are given twice.  Operands that come before
the name are set aside until it is known. -/
def operandsOf? (depth : Nat) : List (String × Json) → Option (Option Json)
  | [] => some none
  | (key, value) :: rest =>
    if key = "args" then
      if rest.any (·.1 == "args") then none
      else if rest.any (·.1 == "op") && !Decoder.keepable depth value then none
      else some (some value)
    else operandsOf? depth rest

/-- Decodes an instruction. -/
def decode : Decoder Instr
  | depth + 1, .object members => do
    let members ← Decoder.members? members
    match members.filter (·.1 == "op") with
    | [(_, op)] => ofParts? depth (← decodeName depth op) (← operandsOf? depth members)
    | _ => none
  | depth + 1, .array [op, args] => do ofParts? depth (← Decoder.text depth op) (some args)
  | _, _ => none

end Instr
end DalvikFacts
