import DalvikFacts.Error
import DalvikFacts.Fact.Relation
import DalvikFacts.Instruction.Mnemonic

/-!
# Notices

What an extraction reports beside its facts: each notice is a cause, with a level and a text.
-/

namespace DalvikFacts

/-- How serious a notice is. -/
inductive Level
  | error
  | warn
  | info
  | debug
  deriving DecidableEq

/-- The word of a level. -/
def Level.word : Level → String
  | error => "error"
  | warn => "warn"
  | info => "info"
  | debug => "debug"

/-- The class that catches everything. -/
def throwable : String := "java.lang.Throwable"

/-- A notice about one method. -/
inductive MethodNotice
  | tooFewRegisters (registers parameterWidth : Nat)
  | movedEntry (address : Address)
  | optimizedOpcode (opcode index : Nat)
  | noStatementType (instr : Instr)
  | fillWithoutArray (index : Nat)
  | fillFarFromArray (index array : Nat)
  | fillBeforeEntry (index : Nat)
  | unusedArrayPayload (address : Address)
  | unsupportedWidth (width : Nat)
  | switchBeforeEntry (index : Nat)
  | unusedSwitchPayload (address : Address)
  | fieldHandle (field : String)
  | residual (what : String) (count : Nat) (addresses : List Address)
  | catchAll (address : Address)
  | unmappedHandler (exceptionType : String) (address start stop : Address)
  | catchElsewhere (index handler : Nat)
  | catchOutsideHandler (index : Nat)
  | unresolvedEdges (count : Nat)
  deriving DecidableEq

/-- A notice of an extraction. -/
inductive Notice
  | method (id : String) (notice : MethodNotice)
  | unresolvedTarget (relation : Relation) (index : Nat) (method : String)
  | skippedMember (cls : String) (error : ExtractionError)
  | noSuperClass (cls : String)
  | arrayInitialValue
  | referenceInitialValue
  | fieldAccesses (count : Nat)
  | containerStarted (name : String) (classes : Nat)
  | containerSkipped (name : String)
  | groupFailed (error : ExtractionError)
  | classSkipped (cls : String) (error : ExtractionError)
  | signatures (count : Nat)
  | methodHandles (container : String) (count : Nat)
  | totals (classes methods instructions : Nat)
  | failuresSkipped (count : Nat)
  deriving DecidableEq

namespace MethodNotice

/-- How serious a notice about a method is. -/
def level : MethodNotice → Level
  | residual .. | unmappedHandler .. | catchOutsideHandler _ => .error
  | movedEntry _ => .info
  | optimizedOpcode .. | fieldHandle _ | unresolvedEdges _ => .debug
  | _ => .warn

/-- The text of a notice about a method, behind the name of the method. -/
def text : MethodNotice → String
  | tooFewRegisters registers parameterWidth =>
    toString registers ++ " registers cannot hold " ++ toString parameterWidth ++
      " parameter registers"
  | movedEntry address =>
    "prologue ends at address " ++ toString address ++ ", instructions start there"
  | optimizedOpcode opcode index =>
    "ignoring odex-only opcode " ++ Instr.byteText opcode ++ " at index " ++ toString index
  | noStatementType instr => "no statement type for " ++ instr.toString
  | fillWithoutArray index =>
    "fill-array-data at index " ++ toString index ++ " without a preceding new-array"
  | fillFarFromArray index array =>
    "fill-array-data at index " ++ toString index ++ " is far from its new-array at index " ++
      toString array
  | fillBeforeEntry index =>
    "fill-array-data at index " ++ toString index ++ " points before the method entry"
  | unusedArrayPayload address =>
    "no fill-array-data for the array payload at address " ++ toString address
  | unsupportedWidth width => "unsupported array payload element width " ++ toString width
  | switchBeforeEntry index =>
    "switch at index " ++ toString index ++ " points before the method entry"
  | unusedSwitchPayload address =>
    "no switch for the switch payload at address " ++ toString address
  | fieldHandle field =>
    "field accessor handle on " ++ field ++ " has no method handle fact"
  | residual what count addresses =>
    toString count ++ " residual " ++ what ++ " entries (payload addresses " ++
      String.intercalate ", " (addresses.map toString) ++ ")"
  | catchAll address =>
    "handler without exception type at address " ++ toString address ++ ", caught as " ++
      throwable
  | unmappedHandler exceptionType address start stop =>
    "cannot map handler of " ++ exceptionType ++ " at address " ++ toString address ++
      " (try block " ++ toString start ++ ".." ++ toString stop ++ ")"
  | catchElsewhere index handler =>
    "move-exception at index " ++ toString index ++ " bound to handler at index " ++
      toString handler
  | catchOutsideHandler index =>
    "move-exception at index " ++ toString index ++ " is not the start of any handler"
  | unresolvedEdges count => toString count ++ " unresolved edges"

end MethodNotice

namespace Notice

/-- How serious a notice is. -/
def level : Notice → Level
  | method _ notice => notice.level
  | skippedMember .. | noSuperClass _ | groupFailed _ | classSkipped .. => .error
  | unresolvedTarget .. | containerSkipped _ | methodHandles .. | failuresSkipped _ => .warn
  | containerStarted .. | totals .. => .info
  | arrayInitialValue | referenceInitialValue | fieldAccesses _ | signatures _ => .debug

/-- The text of a notice. -/
def text : Notice → String
  | method id notice => id ++ ": " ++ notice.text
  | unresolvedTarget relation index id =>
    "cannot resolve " ++ relation.name ++ " target of instruction " ++ toString index ++
      " in method " ++ id
  | skippedMember cls error => "in class " ++ cls ++ ": " ++ error.message
  | noSuperClass cls => "no super class found for " ++ cls
  | arrayInitialValue => "array initial values are not translated"
  | referenceInitialValue => "reference initial values are not translated"
  | fieldAccesses count => toString count ++ " field accesses written"
  | containerStarted name classes =>
    "translating container '" ++ name ++ "' (" ++ toString classes ++ " classes)"
  | containerSkipped name => "skipping container '" ++ name ++ "' after errors"
  | groupFailed error => error.message
  | classSkipped cls error => "class " ++ cls ++ " skipped: " ++ error.message
  | signatures count => toString count ++ " signatures cached"
  | methodHandles container count =>
    "container '" ++ container ++ "' has " ++ toString count ++ " method handles, not translated"
  | totals classes methods instructions =>
    toString classes ++ " classes, " ++ toString methods ++ " methods, " ++
      toString instructions ++ " instructions translated"
  | failuresSkipped count => toString count ++ " failures skipped"

end Notice
end DalvikFacts
