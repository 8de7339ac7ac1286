import DalvikFacts.Container.Decode
import DalvikFacts.Error
import DalvikFacts.Json.Reader
import DalvikFacts.Pattern.Parser
import DalvikFacts.Tool.CommandLine

/-!
# Files of tools

What the tools share: the errors they end with, their access to files, and how container files
are opened.  A tool can run wherever the operations of `Files` are given a meaning.
-/

namespace DalvikFacts

/-- Why a tool ends early. -/
inductive ToolError
  /-- The command line is not accepted. -/
  | usage
  /-- An argument makes no sense. -/
  | badArgument (reason : String)
  /-- A filter is no pattern. -/
  | badPattern
  /-- A file cannot be read or written. -/
  | file
  /-- A file holds no container. -/
  | malformed
  /-- A container lacks a table entry. -/
  | missingEntry (missing : MissingEntry)
  /-- The extraction of facts failed. -/
  | extraction (error : ExtractionError)
  deriving DecidableEq

/-- The text of a tool error, absent where it depends on the system. -/
def ToolError.message? : ToolError → Option String
  | badArgument reason => some ("bad arguments: " ++ reason)
  | missingEntry missing => some missing.message
  | extraction error => some error.message
  | usage | badPattern | file | malformed => none

/-- What comes of making a directory. -/
inductive Making
  /-- It is there, and may have been there before. -/
  | present
  /-- It is not there, since a directory that its path leads through is missing. -/
  | orphaned
  /-- It cannot be made. -/
  | failed
  deriving DecidableEq

/-- Access to files and to the output. -/
class Files (m : Type → Type) where
  /-- The text of a file, absent when it cannot be opened.  A directory has no text. -/
  read? : String → m (Option String)
  /-- Makes a single directory. -/
  makeDirectory : String → m Making
  /-- Writes a file in place of an earlier one, and tells whether it could. -/
  write : String → String → m Bool
  /-- Prints a text. -/
  print : String → m Unit

/-- A tool at work. -/
abbrev Tool (m : Type → Type) := ExceptT ToolError m

namespace Tool

variable {m : Type → Type} [Monad m]

/-- Ends the tool unless an operation succeeded. -/
def succeed (operation : m Bool) : Tool m Unit := do
  if !(← operation) then throw .file

/-- The names in a path.  Empty ones and dots count for nothing, but for a dot at the start. -/
def pathNames (path : String) : List String :=
  match path.splitOn "/" with
  | "." :: rest => "." :: rest.filter fun name => name != "" && name != "."
  | names => names.filter fun name => name != "" && name != "."

/-- The directories around the last of some names, the nearest one first. -/
def pathsAround (root : String) (names : List String) : List String :=
  let counts := (List.range names.length).reverse.filter (· != 0)
  counts.map fun count => root ++ String.intercalate "/" (names.take count)

/-- Makes the first of some directories, each of which is inside of the next one.  Only those are
made that are needed. -/
def createInside [Files m] : List String → m Bool
  | [] => return true
  | path :: around => do
    match ← Files.makeDirectory path with
    | .present => return true
    | .failed => return false
    | .orphaned =>
      if ← createInside around then return (← Files.makeDirectory path) == .present
      else return false

/-- Makes a directory and those around it.  The root and the empty path need none. -/
def createDirectory [Files m] (path : String) : m Bool :=
  let names := pathNames path
  let root := if path.startsWith "/" then "/" else ""
  if names.isEmpty then return true else createInside (path :: pathsAround root names)

/-- A pattern given as an argument. -/
def pattern (text : Option String) : Tool m (Option Pattern) :=
  match text with
  | none => return none
  | some text =>
    match Pattern.parse? text with
    | some pattern => return some pattern
    | none => throw .badPattern

/-- The name of a file without its directories and its last extension.  A name that starts with
its only dot has no extension. -/
def fileStem (path : String) : String :=
  let name := ((pathNames path).getLast?.getD "").toList
  let behind := (name.reverse.takeWhile (· != '.')).length
  let stem := name.take (name.length - behind - 1)
  if behind = name.length ∨ stem.isEmpty then String.ofList name else String.ofList stem

/-- A container with a name; one without is named after its file. -/
def named (path : String) (container : Container) : Container :=
  if container.name = "" then { container with name := fileStem path } else container

/-- The container of a text that was read from a file. -/
def containerOf? (path text : String) : Option Container := do
  return named path (← Container.decode.decode? (← Json.parse? text))

/-- Opens a container file. -/
def openContainer [Files m] (path : String) : Tool m Container := do
  match ← Files.read? (m := m) path with
  | none => throw .file
  | some text =>
    match containerOf? path text with
    | some container => return container
    | none => throw .malformed

/-- The options that every tool has. -/
def commonOptions : List OptionSpec :=
  [⟨"debug", some 'd', .none⟩, ⟨"verbose", some 'v', .none⟩, ⟨"ecslog", some 'e', .none⟩,
    ⟨"input", some 'i', .many⟩, ⟨"filter-class", none, .one⟩]

/-- The command line of a tool, which must name all required options. -/
def commandLine (specs : List OptionSpec) (required : List String) (args : List String) :
    Tool m CommandLine :=
  match CommandLine.parse? (commonOptions ++ specs) args with
  | none => throw .usage
  | some line => if required.all line.has then return line else throw .usage

end Tool
end DalvikFacts
