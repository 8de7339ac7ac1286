import DalvikFacts.Fact.Emit
import Std.Data.TreeMap

/-!
# Pending references

Instructions that point to data further on wait, by the address of that data, until it is reached.
Several may wait for one address; they are handed out together and once, in the order in which
they came.
-/

namespace DalvikFacts

/-- Entries waiting for addresses. -/
structure Pending (α : Type) where
  waiting : Std.TreeMap Address (List α)

/-- A `fill-array-data` waiting for its elements. -/
structure ArrayFill where
  array : Reg
  index : Nat
  heap : String
  deriving DecidableEq

/-- A switch waiting for its cases, which are relative to its own address. -/
structure SwitchUse where
  address : Address
  index : Nat
  deriving DecidableEq

namespace Pending

variable {α : Type}

/-- Nothing waits. -/
def empty : Pending α := ⟨{}⟩

/-- The entries waiting for an address, in registration order. -/
def waitingAt (pending : Pending α) (address : Address) : List α :=
  pending.waiting.getD address []

/-- An entry starts to wait for an address. -/
def register (pending : Pending α) (address : Address) (entry : α) : Pending α :=
  ⟨pending.waiting.insert address (pending.waitingAt address ++ [entry])⟩

/-- The entries of an address have been handed out. -/
def release (pending : Pending α) (address : Address) : Pending α :=
  ⟨pending.waiting.erase address⟩

/-- The entries that wait, in the order of their addresses. -/
def entries (pending : Pending α) : List α :=
  pending.waiting.toList.flatMap Prod.snd

/-- The number of entries that wait. -/
def residual (pending : Pending α) : Nat :=
  pending.entries.length

/-- The addresses that entries wait for, in ascending order. -/
def addresses (pending : Pending α) : List Address :=
  pending.waiting.keys

/-- Reports the entries of a method that never were handed out. -/
def reportResidual {σ : Type} (pending : Pending α) (what method : String) : Emit σ Nat := do
  let count := pending.residual
  if 0 < count then
    Emit.notice (.method method (.residual what count pending.addresses))
  return count

end Pending
end DalvikFacts
