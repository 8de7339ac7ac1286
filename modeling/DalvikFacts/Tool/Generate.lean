import DalvikFacts.Fact.Store
import DalvikFacts.Json.Printer
import DalvikFacts.Run
import DalvikFacts.Tool.Files

/-!
# Generating fact files

The tool that extracts the facts of container files into a directory with one file for each
relation.
-/

namespace DalvikFacts

/-- What is generated, and how. -/
structure GenerateOptions where
  inputs : List String
  output : String
  summary : Option String
  run : Options

/-- The summary of a run. -/
def Stats.json (stats : Stats) : Json :=
  .record [("containers", .nat stats.containers), ("classes", .nat stats.totals.classes),
    ("methods", .nat stats.totals.methods), ("instructions", .nat stats.totals.instructions),
    ("failures", .nat stats.totals.failures),
    ("phantoms", .record [("types", .nat stats.phantoms.types),
      ("methods", .nat stats.phantoms.methods), ("fields", .nat stats.phantoms.fields)])]

/-- The files that hold the facts of some events. -/
def FactFiles.ofEvents (events : List Event) : FactFiles :=
  (factsOf events).foldl FactFiles.add .empty

namespace Tool

variable {m : Type → Type} [Monad m] [Files m]

/-- The options of the tool beside the common ones. -/
def generateSpecs : List OptionSpec :=
  [⟨"output", some 'o', .one⟩, ⟨"cores", some 'j', .one⟩, ⟨"group-size", none, .one⟩,
    ⟨"fail-fast", none, .none⟩, ⟨"app-regex", none, .one⟩, ⟨"no-phantoms", none, .none⟩,
    ⟨"summary", some 's', .one⟩]

/-- A number given as an argument. -/
def number (text : Option String) : Tool m (Option Nat) :=
  match text with
  | none => return none
  | some text =>
    match CommandLine.number? text with
    | some number => return some number
    | none => throw .usage

/-- A number that must not be zero. -/
def positive (name : String) (number : Option Nat) : Tool m Unit := do
  if number = some 0 then throw (.badArgument (name ++ " must be positive"))

/-- The options of the tool, read from a command line.  The number of cores is checked, but has no
effect on the facts. -/
def generateOptions (args : List String) : Tool m GenerateOptions := do
  let line ← commandLine generateSpecs ["input", "output"] args
  let cores ← number (line.value "cores")
  let groupSize ← number (line.value "group-size")
  positive "--cores" cores
  positive "--group-size" groupSize
  let application ← pattern (line.value "app-regex")
  let filter ← pattern (line.value "filter-class")
  return {
    inputs := line.values "input"
    output := (line.value "output").getD ""
    summary := line.value "summary"
    run := { groupSize := groupSize.getD Options.standard.groupSize
             failFast := line.has "fail-fast"
             application, filter
             phantoms := !line.has "no-phantoms" } }

/-- A file in a directory. -/
def inDirectory (directory name : String) : String :=
  if directory = "" ∨ directory.endsWith "/" then directory ++ name else directory ++ "/" ++ name

/-- Writes fact files into a directory. -/
def writeFacts (directory : String) (files : FactFiles) : Tool m Unit :=
  files.files.forM fun (name, text) =>
    succeed (Files.write (m := m) (inDirectory directory name) text)

/-- Extracts the facts of container files.  All files are made before the run, and the facts are
written even if it fails. -/
def generate (args : List String) : Tool m Unit := do
  let options ← generateOptions args
  let containers ← options.inputs.mapM openContainer
  succeed (createDirectory (m := m) options.output)
  writeFacts options.output .empty
  let outcome := (Run.run options.run containers).run .empty
  writeFacts options.output (.ofEvents outcome.events)
  match outcome.value with
  | .error error => throw (.extraction error)
  | .ok stats =>
    match options.summary with
    | none => pure ()
    | some path => succeed (Files.write (m := m) path stats.json.pretty)

end Tool
end DalvikFacts
