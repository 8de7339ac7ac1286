import DalvikFacts.Signature
import DalvikFacts.Tool.Files

/-!
# Listings

The tool that lists the instructions of methods with their indices and addresses.
-/

namespace DalvikFacts

namespace Listing

/-- A text in a colour or style of the terminal, by its code. -/
def styled (code text : String) : String :=
  "\x1b[" ++ code ++ "m" ++ text ++ "\x1b[0m"

/-- The style of method names. -/
def boldGreen : String := "1;32"

/-- The style of opcodes outside of the standard set. -/
def red : String := "31"

/-- The style of data. -/
def darkGray : String := "90"

/-- A number behind as many filling characters as make up a width. -/
def padded (fill : Char) (width number : Nat) : String :=
  let digits := toString number
  String.ofList (List.replicate (width - digits.length) fill) ++ digits

/-- The text of an instruction. -/
def instrText (colored : Bool) (instr : Instr) : String :=
  let text := instr.toString
  match instr with
  | .optimized .. | .unknown .. => if colored then styled red text else text
  | _ => if colored && instr.isPayload then styled darkGray text else text

/-- The line of an instruction. -/
def line (colored : Bool) (located : LocatedInstr) : String :=
  "    " ++ padded ' ' 4 located.index ++ ": " ++ padded '0' 4 located.address.toNat ++ " " ++
    instrText colored located.instr ++ "\n"

/-- The lines of a method body. -/
def body (colored : Bool) (code : CodeItem) : String :=
  String.join (code.located.map (line colored))

/-- The line of a method. -/
def title (colored : Bool) (sig : MethodSig) : String :=
  "[*] " ++ (if colored then styled boldGreen sig.id else sig.id) ++ "\n"

end Listing

/-- What is listed, and how. -/
structure ListingOptions where
  inputs : List String
  classes : Option Pattern
  methods : Option Pattern
  colored : Bool

namespace Tool

variable {m : Type → Type} [Monad m] [Files m]

/-- The options of a listing, read from a command line. -/
def listingOptions (args : List String) : Tool m ListingOptions := do
  let line ← commandLine [⟨"filter-method", none, .one⟩, ⟨"no-color", none, .none⟩] ["input"] args
  let classes ← pattern (line.value "filter-class")
  let methods ← pattern (line.value "filter-method")
  return { inputs := line.values "input", classes, methods, colored := !line.has "no-color" }

/-- Lists a method. -/
def listMethod (options : ListingOptions) (container : Container) (method : MethodDef) :
    Tool m Unit := do
  match method.code with
  | none => pure ()
  | some code =>
    match container.methodAt method.method with
    | .error missing => throw (.missingEntry missing)
    | .ok ref =>
      let sig := MethodSig.ofRef ref
      if Pattern.passes options.methods sig.name then
        Files.print (m := m)
          (Listing.title options.colored sig ++ Listing.body options.colored code)

/-- Lists the methods of a class. -/
def listClass (options : ListingOptions) (container : Container) (cls : ClassDef) :
    Tool m Unit := do
  if Pattern.passes options.classes cls.name then
    cls.methods.forM (listMethod options container)

/-- Lists the instructions of container files. -/
def list (args : List String) : Tool m Unit := do
  let options ← listingOptions args
  options.inputs.forM fun path => do
    let container ← openContainer path
    container.classes.forM (listClass options container)

end Tool
end DalvikFacts
