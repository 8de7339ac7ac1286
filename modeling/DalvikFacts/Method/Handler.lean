import DalvikFacts.Method.State

/-!
# Exception handlers

The facts of try blocks.  The handlers of a block are taken in the order of their addresses; each
one whose addresses are all known gets a row, and is linked to the one before it.  A caught
exception is then bound to every handler that starts where it is moved into a register.
-/

namespace DalvikFacts

/-- A handler that has a row. -/
structure HandlerRegion where
  insn : String
  address : Address
  index : Nat
  deriving DecidableEq

namespace CatchHandler

/-- The source name of what a handler catches. -/
def caughtName (handler : CatchHandler) : String :=
  match handler.exceptionType with
  | some type => type.sourceName
  | none => throwable

end CatchHandler

/-- The handlers of a block in the order of their addresses, equal ones in the given order. -/
def TryBlock.sortedHandlers (block : TryBlock) : List CatchHandler :=
  block.handlers.mergeSort fun a b => decide (a.address ≤ b.address)

namespace MethodContext

/-- The region of a handler, absent when one of the addresses of handler and block is unknown.
The columns behind the region are the indices where the block starts and stops. -/
def region? (cx : MethodContext) (addresses : AddressMap) (block : TryBlock)
    (handler : CatchHandler) : Option (HandlerRegion × Nat × Nat) := do
  let index ← addresses.indexOf? handler.address
  let start ← addresses.indexOf? block.start
  let stop ← addresses.indexOf? block.stop
  let insn := cx.insn (Identifier.handlerKind handler.caughtName) index
  return (⟨insn, handler.address, index⟩, start, stop)

/-- Emits the row of a handler and its link to the one before it; returns its region. -/
def writeHandler (cx : MethodContext) (block : TryBlock) (handler : CatchHandler)
    (previous : Option HandlerRegion) : MethodEmit (Option HandlerRegion) := do
  if handler.exceptionType.isNone then cx.notice (.catchAll handler.address)
  match cx.region? (← get).addresses block handler with
  | none =>
    cx.notice (.unmappedHandler handler.caughtName handler.address block.start block.stop)
    return none
  | some (region, start, stop) =>
    Emit.row .exceptionHandler
      [region.insn, cx.id, toString region.index, handler.caughtName, toString start,
        toString stop]
    match previous with
    | some previous => Emit.row .exceptionHandlerPrevious [region.insn, previous.insn]
    | none => pure ()
    return some region

/-- Emits the rows of successive handlers of a block; returns their regions. -/
def writeHandlers (cx : MethodContext) (block : TryBlock) :
    List CatchHandler → Option HandlerRegion → MethodEmit (List HandlerRegion)
  | [], _ => return []
  | handler :: rest, previous => do
    let region ← cx.writeHandler block handler previous
    let regions ← cx.writeHandlers block rest region
    return region.toList ++ regions

/-- Emits the rows of the handlers of all blocks; returns their regions. -/
def writeTries (cx : MethodContext) : List TryBlock → MethodEmit (List HandlerRegion)
  | [] => return []
  | block :: rest => do
    let regions ← cx.writeHandlers block block.sortedHandlers none
    let others ← cx.writeTries rest
    return regions ++ others

/-- Binds a caught exception to one of the handlers that start with it. -/
def bindTo (cx : MethodContext) (caught : CaughtException) (region : HandlerRegion) :
    MethodEmit Unit := do
  if region.index ≠ caught.index then
    cx.notice (.catchElsewhere caught.index region.index)
  let var ← cx.use caught.reg
  Emit.row .exceptionHandlerFormalParam [region.insn, var]

/-- Binds a caught exception to all handlers that start with it. -/
def bindCaught (cx : MethodContext) (regions : List HandlerRegion) (caught : CaughtException) :
    MethodEmit Unit := do
  let matching := regions.filter (·.address == caught.address)
  matching.forM (cx.bindTo caught)
  if matching.isEmpty then cx.notice (.catchOutsideHandler caught.index)

/-- Emits the facts of try blocks and of the exceptions caught in the method. -/
def writeExceptions (cx : MethodContext) (tries : List TryBlock) : MethodEmit Unit := do
  let regions ← cx.writeTries tries
  (← get).catches.toList.forM (cx.bindCaught regions)

end MethodContext
end DalvikFacts
