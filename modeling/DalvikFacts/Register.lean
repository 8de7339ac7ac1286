/-!
# Registers

Registers have 16 bit numbers.  An instruction names its operands either one by one or as a range
of consecutive registers; both are read as the list of registers they stand for.
-/

namespace DalvikFacts

/-- A register of a method body. -/
structure Reg where
  number : UInt16
  deriving DecidableEq, Repr, Inhabited

/-- A range of consecutive registers. -/
structure RegRange where
  first : Reg
  count : UInt16
  deriving DecidableEq, Repr

/-- The operands of an invocation or of a filled array. -/
inductive Operands
  | list (regs : List Reg)
  | range (regs : RegRange)
  deriving DecidableEq, Repr

namespace Reg

/-- The text of a register. -/
protected def toString (reg : Reg) : String :=
  "v" ++ toString reg.number.toNat

instance : ToString Reg := ⟨Reg.toString⟩

/-- The register with a number, absent beyond the last register. -/
def ofNat? (number : Nat) : Option Reg :=
  if number < 65536 then some ⟨UInt16.ofNat number⟩ else none

/-- The register a number of registers further on; the last one stands for all beyond it. -/
def advance (reg : Reg) (count : Nat) : Reg :=
  ⟨UInt16.ofNat (min 65535 (reg.number.toNat + count))⟩

/-- The second register of a pair. -/
def next (reg : Reg) : Reg :=
  reg.advance 1

/-- The text of a list of registers. -/
def listText (registers : List Reg) : String :=
  "\x7b" ++ String.intercalate ", " (registers.map Reg.toString) ++ "\x7d"

end Reg

namespace RegRange

/-- The registers of a range; those past the last register are dropped. -/
def registers (range : RegRange) : List Reg :=
  (List.range range.count.toNat).filterMap fun i => Reg.ofNat? (range.first.number.toNat + i)

/-- Whether a range holds no register. -/
def isEmpty (range : RegRange) : Bool :=
  range.count == 0

/-- The text of a range. -/
protected def toString (range : RegRange) : String :=
  if range.isEmpty then "\x7b\x7d"
  else
    "\x7b" ++ range.first.toString ++ " .. " ++
      (range.first.advance (range.count.toNat - 1)).toString ++ "\x7d"

end RegRange

namespace Operands

/-- The registers that operands stand for, in order. -/
def registers : Operands → List Reg
  | list regs => regs
  | range regs => regs.registers

end Operands
end DalvikFacts
