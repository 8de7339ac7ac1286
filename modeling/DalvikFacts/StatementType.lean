import DalvikFacts.Instruction.Basic

/-!
# Statement types

A light typing of moves, constants, operations and conversions: the category of the operands and
the category of the result.
-/

namespace DalvikFacts

/-- A category of register contents. -/
inductive Category
  /-- An untyped pattern of 32 bits. -/
  | bits32
  /-- An untyped pattern of 64 bits. -/
  | bits64
  | int32
  | long
  | float
  | double
  | byte
  | char
  | short
  | object
  /-- Any 32 bit primitive. -/
  | primitive32
  /-- Any 64 bit primitive. -/
  | primitive64
  deriving DecidableEq

/-- The name of a category in facts. -/
def Category.name : Category → String
  | bits32 => "BITS32"
  | bits64 => "BITS64"
  | int32 => "INT32"
  | long => "LONG"
  | float => "FLOAT"
  | double => "DOUBLE"
  | byte => "BYTE"
  | char => "CHAR"
  | short => "SHORT"
  | object => "OBJ"
  | primitive32 => "PRIM32"
  | primitive64 => "PRIM64"

/-- The categories of the operands and of the result of a statement. -/
structure StatementType where
  operand : Category
  result : Category
  deriving DecidableEq

namespace StatementType

/-- Operands and result have one category. -/
def uniform (category : Category) : StatementType := ⟨category, category⟩

/-- The type of a move. -/
def ofMove : MoveKind → StatementType
  | .narrow => uniform .primitive32
  | .wide => uniform .primitive64
  | .object => uniform .object

/-- The type of a comparison, by what it compares. -/
def ofCompare : CompareOp → StatementType
  | .lessFloat | .greaterFloat => uniform .float
  | .lessDouble | .greaterDouble => uniform .double
  | .long => uniform .long

/-- The type of a unary operation or a conversion. -/
def ofUnop : Unop → StatementType
  | .negInt | .notInt => uniform .int32
  | .negLong | .notLong => uniform .long
  | .negFloat => uniform .float
  | .negDouble => uniform .double
  | .intToLong => ⟨.int32, .long⟩
  | .intToFloat => ⟨.int32, .float⟩
  | .intToDouble => ⟨.int32, .double⟩
  | .longToInt => ⟨.long, .int32⟩
  | .longToFloat => ⟨.long, .float⟩
  | .longToDouble => ⟨.long, .double⟩
  | .floatToInt => ⟨.float, .int32⟩
  | .floatToLong => ⟨.float, .long⟩
  | .floatToDouble => ⟨.float, .double⟩
  | .doubleToInt => ⟨.double, .int32⟩
  | .doubleToLong => ⟨.double, .long⟩
  | .doubleToFloat => ⟨.double, .float⟩
  | .intToByte => ⟨.int32, .byte⟩
  | .intToChar => ⟨.int32, .char⟩
  | .intToShort => ⟨.int32, .short⟩

/-- The type of a binary operation. -/
def ofBinop : Binop → StatementType
  | .int _ => uniform .int32
  | .long _ => uniform .long
  | .float _ => uniform .float
  | .double _ => uniform .double

end StatementType

/-- The type of an instruction, absent outside of the typed families. -/
def Instr.statementType? : Instr → Option StatementType
  | move kind _ _ _ => some (.ofMove kind)
  | const .. => some (.uniform .bits32)
  | constWide .. => some (.uniform .bits64)
  | arrayLength .. => some ⟨.object, .int32⟩
  | compare op _ _ _ => some (.ofCompare op)
  | unop op _ _ => some (.ofUnop op)
  | binop op _ _ _ | binopInPlace op _ _ => some (.ofBinop op)
  | binopLiteral .. | binopSmallLiteral .. => some (.uniform .int32)
  | _ => none

end DalvikFacts
