import DalvikFacts.Tool.Generate
import DalvikFacts.Tool.Listing

/-!
# The program

The command line of the program: `disas` lists the instructions of containers, `generate` writes
their facts.
-/

namespace DalvikFacts

/-- Whether an action ends without an error. -/
def completes (action : IO Unit) : IO Bool :=
  try
    action
    return true
  catch _ => return false

instance : Files IO where
  read? path := do
    match ← (IO.FS.Handle.mk path .read).toBaseIO with
    | .error _ => return none
    | .ok handle =>
      try
        return some (← handle.readToEnd)
      catch _ => return some ""
  makeDirectory path := do
    match ← (IO.FS.createDir path).toBaseIO with
    | .ok () => return .present
    | .error (.noFileOrDirectory ..) => return .orphaned
    | .error (.alreadyExists ..) =>
      return if ← completes (IO.FS.createDirAll path) then .present else .failed
    | .error _ => return .failed
  write path text := completes (IO.FS.writeFile path text)
  print text := IO.print text

/-- What is told about an error. -/
def ToolError.report (error : ToolError) : String :=
  match error.message? with
  | some message => message
  | none =>
    match error with
    | .badPattern => "a filter is not a regular expression"
    | .file => "a file cannot be read or written"
    | .malformed => "a file is not a container"
    | _ => "usage: disas -i FILE... | generate -i FILE... -o DIRECTORY"

/-- Runs a tool, and reports its error. -/
def runTool (tool : Tool IO Unit) : IO UInt32 := do
  match ← tool.run with
  | .ok () => return 0
  | .error error =>
    IO.eprintln ("error: " ++ error.report)
    return if error = .usage then 2 else 1

/-- Runs the tool named by the first argument. -/
def runNamed : List String → IO UInt32
  | "disas" :: args => runTool (Tool.list args)
  | "generate" :: args => runTool (Tool.generate args)
  | _ => runTool (throw .usage)

end DalvikFacts

/-- The program. -/
def main (args : List String) : IO UInt32 :=
  DalvikFacts.runNamed args
