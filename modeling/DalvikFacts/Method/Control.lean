import DalvikFacts.Method.Assignment

/-!
# Control flow

The facts of branches, switches, returns and throws.  The rows of edges are written once all
instructions are known; the cases of a switch come from the payload that it points to.
-/

namespace DalvikFacts.MethodContext

/-- A return without value. -/
def writeReturnVoid (cx : MethodContext) (here : LocatedInstr) : MethodEmit Unit :=
  Emit.row .returnVoid [cx.insn "return-void" here.index, toString here.index, cx.id]

/-- A return of a register. -/
def writeReturn (cx : MethodContext) (here : LocatedInstr) (src : Reg) : MethodEmit Unit := do
  let src ← cx.use src
  Emit.row .returnValue [cx.insn "return" here.index, toString here.index, src, cx.id]

/-- A thrown register. -/
def writeThrow (cx : MethodContext) (here : LocatedInstr) (exception : Reg) :
    MethodEmit Unit := do
  let insn ← cx.numberedInsn (Identifier.throwKind exception.toString)
  let var ← cx.use exception
  Emit.row .throw [insn, toString here.index, var, cx.id]

/-- A caught exception moved into a register. -/
def writeCatch (here : LocatedInstr) (dst : Reg) : MethodEmit Unit :=
  modify fun state =>
    { state with catches := state.catches.push ⟨dst, here.address, here.index⟩ }

/-- The address a branch leads to, absent before the entry. -/
def branchTarget? (here : LocatedInstr) : Option Address :=
  here.instr.targetOffset?.bind (Address.offset? here.address)

/-- Queues the edge of a branch. -/
def queueBranch (here : LocatedInstr) (relation : Relation) (insn : String) : MethodEmit Unit :=
  modify (·.withAddresses (·.queue
    { relation, insn, index := here.index, key := none, target := branchTarget? here }))

/-- An unconditional branch. -/
def writeGoto (cx : MethodContext) (here : LocatedInstr) : MethodEmit Unit :=
  queueBranch here .goto (cx.insn "goto" here.index)

/-- The sign of a test. -/
def testSign : TestOp → String
  | .eq => "=="
  | .ne => "!="
  | .lt => "<"
  | .ge => ">="
  | .gt => ">"
  | .le => "<="

/-- Emits the operands and the sign of a test. -/
def writeTest (cx : MethodContext) (insn : String) (test : TestOp) (left : Reg)
    (right : Option Reg) : MethodEmit Unit := do
  let left ← cx.use left
  Emit.row .ifVar [insn, leftOperand, left]
  match right with
  | none => pure ()
  | some right =>
    let right ← cx.use right
    Emit.row .ifVar [insn, rightOperand, right]
  Emit.row .operatorAt [insn, testSign test]

/-- A conditional branch on a register and another register or zero. -/
def writeBranch (cx : MethodContext) (here : LocatedInstr) (test : TestOp) (left : Reg)
    (right : Option Reg) : MethodEmit Unit := do
  let insn := cx.insn "if" here.index
  queueBranch here .branch insn
  cx.writeTest insn test left right

/-- The identifier of a switch. -/
def switchInsn (cx : MethodContext) (index : Nat) : String :=
  cx.insn "switch" index

/-- The relation of a switch. -/
def switchRelation : SwitchKind → Relation
  | .packed => .tableSwitch
  | .sparse => .lookupSwitch

/-- The relation of the cases of a switch. -/
def caseRelation : SwitchKind → Relation
  | .packed => .tableSwitchTarget
  | .sparse => .lookupSwitchTarget

/-- A switch, which waits for its payload. -/
def writeSwitch (cx : MethodContext) (here : LocatedInstr) (kind : SwitchKind) (key : Reg)
    (offset : Int) : MethodEmit Unit := do
  let key ← cx.use key
  Emit.row (switchRelation kind) [cx.switchInsn here.index, toString here.index, key, cx.id]
  match Address.offset? here.address offset with
  | none => cx.notice (.switchBeforeEntry here.index)
  | some target =>
    modify fun state =>
      { state with switches := state.switches.register target ⟨here.address, here.index⟩ }

/-- The edges of the cases of a switch. -/
def caseEdges (cx : MethodContext) (kind : SwitchKind) (cases : List (Int × Int))
    (use : SwitchUse) : List Edge :=
  cases.map fun (key, offset) =>
    { relation := caseRelation kind, insn := cx.switchInsn use.index, index := use.index,
      key := some key, target := Address.offset? use.address offset }

/-- A payload with the keys and relative targets of switches. -/
def writeSwitchPayload (cx : MethodContext) (here : LocatedInstr) (kind : SwitchKind)
    (cases : List (Int × Int)) : MethodEmit Unit := do
  let uses := (← get).switches.waitingAt here.address
  modify fun state => { state with switches := state.switches.release here.address }
  if uses.isEmpty then cx.notice (.unusedSwitchPayload here.address)
  modify (·.withAddresses (·.queueAll (uses.flatMap (cx.caseEdges kind cases))))

end DalvikFacts.MethodContext
