import DalvikFacts.Container.Basic

/-!
# Extraction errors

What stops the extraction of a member, a class or a run.
-/

namespace DalvikFacts

/-- Why an extraction stops. -/
inductive ExtractionError
  /-- A table of the container has no such entry. -/
  | missingEntry (missing : MissingEntry)
  /-- An opcode is not known. -/
  | unknownOpcode (method : String) (opcode : String) (line : String)
  /-- A result move has no result to move. -/
  | missingResult (method : String) (index : Nat)
  /-- A result move does not follow the instruction that made the result. -/
  | staleResult (method : String) (index producer : Nat)
  /-- An invocation has fewer registers than its parameters take. -/
  | missingArguments (method : String) (expected available : Nat)
  /-- An invocation has no register for its receiver. -/
  | missingReceiver (method : String)
  /-- A class has two super classes. -/
  | superClassConflict (cls previous new : String)
  /-- Some groups of classes failed. -/
  | failed (errors : Nat)
  deriving DecidableEq

/-- The text of an extraction error. -/
def ExtractionError.message : ExtractionError → String
  | missingEntry missing => "dex error: " ++ missing.message
  | unknownOpcode method opcode line =>
    method ++ ": unsupported opcode " ++ opcode ++ " at line " ++ line
  | missingResult method index =>
    method ++ ": move-result at index " ++ toString index ++ " has no pending result"
  | staleResult method index producer =>
    method ++ ": move-result at index " ++ toString index ++
      " is not next to its producer at index " ++ toString producer
  | missingArguments method expected available =>
    method ++ ": invocation expects " ++ toString expected ++ " argument registers, " ++
      toString available ++ " available"
  | missingReceiver method => method ++ ": instance invocation without receiver register"
  | superClassConflict cls previous new =>
    "class " ++ cls ++ " already has super class " ++ previous ++ ", cannot register " ++ new
  | failed errors => "translation failed (" ++ toString errors ++ " errors)"

end DalvikFacts
