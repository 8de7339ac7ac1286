import Std.Data.HashMap

/-!
# Identifiers

The names of the entities that facts speak about.  Everything inside a method is named after the
method.  Entities of one kind are told apart either by the index of their instruction or by a
number counted for their kind.
-/

namespace DalvikFacts

/-- How many numbers each kind has used up in a method. -/
structure Counters where
  used : Std.HashMap String Nat

namespace Counters

/-- No number is used. -/
def empty : Counters := ⟨{}⟩

/-- The next number of a kind, counted from zero. -/
def peek (counters : Counters) (kind : String) : Nat :=
  counters.used.getD kind 0

/-- Uses up the next number of a kind. -/
def advance (counters : Counters) (kind : String) : Counters :=
  ⟨counters.used.insert kind (counters.peek kind + 1)⟩

end Counters

namespace Identifier

/-- Names separated by commas. -/
def commaList (names : List String) : String :=
  String.intercalate "," names

/-- Names separated by commas, between parentheses. -/
def parenthesized (names : List String) : String :=
  "(" ++ commaList names ++ ")"

/-- A method. -/
def method (owner returnType name : String) (params : List String) : String :=
  "<" ++ owner ++ ": " ++ returnType ++ " " ++ name ++ parenthesized params ++ ">"

/-- A field. -/
def field (owner type name : String) : String :=
  "<" ++ owner ++ ": " ++ type ++ " " ++ name ++ ">"

/-- The object of a class. -/
def classConstant (cls : String) : String :=
  "<class " ++ cls ++ ">"

/-- The object of a method handle. -/
def methodHandleConstant (target : String) : String :=
  "<handle " ++ target ++ ">"

/-- The object of a method type. -/
def methodTypeConstant (params : List String) (returnType : String) : String :=
  parenthesized params ++ returnType

/-- A local variable of a method. -/
def localVariable (method : String) (number : Nat) : String :=
  method ++ "/v" ++ toString number

/-- A parameter of a method, numbered by its first register. -/
def parameter (method : String) (number : Nat) : String :=
  method ++ "/p" ++ toString number

/-- The receiver of a method. -/
def receiver (method : String) : String :=
  parameter method 0

/-- The result of a native method. -/
def nativeReturn (method : String) : String :=
  method ++ "/@native-return"

/-- The symbol under which a native method is linked. -/
def nativeSymbol (owner name : String) : String :=
  "Java_" ++ String.ofList (owner.toList.map fun c => if c = '.' then '_' else c) ++ "_" ++ name

/-- An instruction of some kind, with its index or number. -/
def instruction (method kind : String) (number : Nat) : String :=
  method ++ "/" ++ kind ++ "/" ++ toString number

/-- The kind of an allocation of a type, as part of its name. -/
def allocationKind (type : String) : String :=
  "new " ++ type

/-- A numbered allocation of a type. -/
def allocation (method type : String) (number : Nat) : String :=
  instruction method (allocationKind type) number

/-- The kind of a handler of an exception type. -/
def handlerKind (exceptionType : String) : String :=
  "catch " ++ exceptionType

/-- The kind of a throw of a register. -/
def throwKind (register : String) : String :=
  "throw " ++ register

/-- The text of a source line, `-1` when there is none. -/
def lineText : Option Nat → String
  | none => "-1"
  | some line => toString line

end Identifier
end DalvikFacts
