/-!
# Command lines

A command line is a list of options, each with the values that follow it.  Options have a long
name behind two dashes and may have a short one behind a single dash; short options without values
can be written together.  A value can be given behind an equals sign, or right behind a short
name; otherwise it is the next argument.  Nothing but options and their values is accepted.
-/

namespace DalvikFacts

/-- How many values an option takes. -/
inductive Arity
  | none
  | one
  | many
  deriving DecidableEq

/-- An option that a command knows. -/
structure OptionSpec where
  name : String
  short : Option Char
  arity : Arity
  deriving DecidableEq

/-- An option given on a command line. -/
structure GivenOption where
  spec : OptionSpec
  values : List String
  deriving DecidableEq

/-- What is known of a command line while it is read. -/
structure CommandLine where
  given : List GivenOption
  /-- The option that the next values belong to. -/
  waiting : Option GivenOption

namespace CommandLine

/-- Nothing is read. -/
def start : CommandLine := ⟨[], none⟩

/-- Adds an option. -/
def push (line : CommandLine) (option : GivenOption) : CommandLine :=
  { line with given := line.given ++ [option] }

/-- Ends the option that waits for values, which must have got one. -/
def settle (line : CommandLine) : Option CommandLine :=
  match line.waiting with
  | none => some line
  | some option =>
    if option.values.isEmpty then none else some ({ line with waiting := none }.push option)

/-- An option that has to wait for its values. -/
def await (line : CommandLine) (spec : OptionSpec) : CommandLine :=
  { line with waiting := some ⟨spec, []⟩ }

/-- Reads an option by its long name, with the value behind its equals sign. -/
def long? (specs : List OptionSpec) (line : CommandLine) (name : String)
    (value : Option String) : Option CommandLine := do
  let spec ← specs.find? (·.name == name)
  match spec.arity, value with
  | .none, none => return line.push ⟨spec, []⟩
  | .none, some _ => failure
  | _, some value => return line.push ⟨spec, [value]⟩
  | _, none => return line.await spec

/-- The value written right behind a short name. -/
def attached : List Char → String
  | '=' :: rest => String.ofList rest
  | rest => String.ofList rest

/-- Reads short names written together. -/
def shorts? (specs : List OptionSpec) : CommandLine → List Char → Option CommandLine
  | line, [] => some line
  | line, c :: rest => do
    let spec ← specs.find? (·.short == some c)
    match spec.arity, rest with
    | .none, _ => shorts? specs (line.push ⟨spec, []⟩) rest
    | _, [] => return line.await spec
    | _, _ => return line.push ⟨spec, [attached rest]⟩

/-- Reads a value of the option that waits for it. -/
def value? (line : CommandLine) (value : String) : Option CommandLine := do
  let option ← line.waiting
  let option := { option with values := option.values ++ [value] }
  match option.spec.arity with
  | .many => return { line with waiting := some option }
  | _ => return { line with waiting := none }.push option

/-- The text before the first equals sign, and the text behind it if there is one. -/
def cutEquals (text : List Char) : String × Option String :=
  let name := String.ofList (text.takeWhile (· != '='))
  match text.dropWhile (· != '=') with
  | [] => (name, none)
  | _ :: value => (name, some (String.ofList value))

/-- Reads arguments.  Behind two dashes alone nothing may follow. -/
def read? (specs : List OptionSpec) : CommandLine → List String → Option CommandLine
  | line, [] => line.settle
  | line, arg :: rest =>
    match arg.toList with
    | ['-', '-'] => if rest.isEmpty then line.settle else none
    | '-' :: '-' :: text => do
      let (name, value) := cutEquals text
      read? specs (← long? specs (← line.settle) name value) rest
    | '-' :: c :: text => do
      read? specs (← shorts? specs (← line.settle) (c :: text)) rest
    | _ => do read? specs (← line.value? arg) rest

/-- Whether no option is given twice, apart from those with many values. -/
def isSingle (line : CommandLine) : Bool :=
  line.given.all fun option =>
    option.spec.arity == .many || line.given.countP (·.spec == option.spec) == 1

/-- The options of a command line, absent when it is not accepted. -/
def parse? (specs : List OptionSpec) (args : List String) : Option CommandLine :=
  (read? specs start args).filter isSingle

/-- All values of an option. -/
def values (line : CommandLine) (name : String) : List String :=
  (line.given.filter (·.spec.name == name)).flatMap GivenOption.values

/-- The value of an option. -/
def value (line : CommandLine) (name : String) : Option String :=
  (line.values name).head?

/-- Whether an option is given. -/
def has (line : CommandLine) (name : String) : Bool :=
  line.given.any (·.spec.name == name)

/-- The number written by decimal digits, behind a plus sign or not, if it fits into 64 bits. -/
def number? (text : String) : Option Nat :=
  let digits := match text.toList with
    | '+' :: rest => rest
    | rest => rest
  if digits.isEmpty || !digits.all Char.isDigit then none
  else
    let number := digits.foldl (fun number c => 10 * number + (c.toNat - '0'.toNat)) 0
    if number < 0x10000000000000000 then some number else none

end CommandLine
end DalvikFacts
