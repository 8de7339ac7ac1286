import DalvikFacts.Method.Handler
import DalvikFacts.Method.Header
import DalvikFacts.Method.Plan

/-!
# Extraction of a method

The facts of one method: its header, its instructions one after the other, and then what could
only be known at the end: exception handlers, the address map and the edges between instructions.
The first instruction that fails ends the extraction.
-/

namespace DalvikFacts

/-- What the extraction of a method leaves beside its facts. -/
structure ExtractedMethod where
  id : String
  instructions : Nat
  accesses : List FieldAccess
  deriving DecidableEq

namespace MethodContext

/-- The number of registers of the parameters and the receiver. -/
def parameterWidth (definition : MethodDef) (sig : MethodSig) : Nat :=
  sig.width + (if definition.isStatic then 0 else 1)

/-- The context of a method of a known signature.  A body with too few registers for the parameters
is reported, and taken to have no local register. -/
def ofSig (container : Container) (definition : MethodDef) (sig : MethodSig) :
    Extract MethodContext := do
  let width := parameterWidth definition sig
  match definition.code with
  | none => return { container, definition, sig, localCount := 0 }
  | some code =>
    if code.registers < width then
      Extract.emit (Emit.notice (.method sig.id (.tooFewRegisters code.registers width)))
    return { container, definition, sig, localCount := code.registers - width }

/-- The context of a method. -/
def create (container : Container) (definition : MethodDef) : Extract MethodContext := do
  let found ← Extract.lookup (SignatureCache.method container definition.method)
  ofSig container definition found.value

/-- Reports the markers that move the entry of the method. -/
def reportMovedEntries (cx : MethodContext) (code : CodeItem) : MethodEmit Unit :=
  (code.debugItems.filterMap DebugItem.movedEntry?).forM fun address =>
    cx.notice (.movedEntry address)

/-- Plans and does successive instructions. -/
def extractInstrs (cx : MethodContext) :
    List LocatedInstr → MethodState → Extract MethodState
  | [], state => return state
  | here :: rest, state => do
    let state := state.reach here.address here.index
    let action ← Extract.lookup (cx.plan here state.carry.result)
    let (_, state) ← Extract.within action state
    cx.extractInstrs rest state

/-- Reports what still waits for data, and emits the exception handlers. -/
def concludeBody (cx : MethodContext) (code : CodeItem) : MethodEmit Unit := do
  let _ ← (← get).fills.reportResidual "fill-array-data" cx.id
  let _ ← (← get).switches.reportResidual "switch" cx.id
  cx.writeExceptions code.tries

/-- Emits the address map with its edges. -/
def writeAddresses (cx : MethodContext) : MethodEmit Unit := do
  let addresses := (← get).addresses
  addresses.write cx.id
  if 0 < addresses.unresolved then cx.notice (.unresolvedEdges addresses.unresolved)

/-- Emits what is known once all instructions are done. -/
def finish (cx : MethodContext) (code : CodeItem) : MethodEmit Unit := do
  modify (·.reach code.endAddress (code.instructions.length + 1))
  cx.concludeBody code
  cx.writeAddresses

/-- Emits the facts of a body; returns the state after it. -/
def extractCode (cx : MethodContext) (code : CodeItem) (state : MethodState) :
    Extract MethodState := do
  let (_, state) ← Extract.within (cx.reportMovedEntries code) state
  let state ← cx.extractInstrs code.located state
  let (_, state) ← Extract.within (cx.finish code) state
  return state

/-- Emits the facts of the method. -/
def extract (cx : MethodContext) : Extract ExtractedMethod := do
  let (_, state) ← Extract.within cx.writeHeader .start
  match cx.definition.code with
  | none => return ⟨cx.id, 0, state.accesses.toList⟩
  | some code =>
    let state ← cx.extractCode code state
    return ⟨cx.id, code.instructions.length, state.accesses.toList⟩

end MethodContext

/-- Emits the facts of a method of a container. -/
def MethodDef.extract (container : Container) (definition : MethodDef) :
    Extract ExtractedMethod := do
  (← MethodContext.create container definition).extract

end DalvikFacts
