/-!
# Code addresses

Addresses count 16 bit code units from the entry of a method.  An address is a machine word: what is
added past the last one wraps around to the entry.
-/

namespace DalvikFacts

/-- A position in the code of a method. -/
abbrev Address := UInt64

namespace Address

/-- The address of the first instruction of a method. -/
def entry : Address := 0

/-- The address a number of code units ahead. -/
def advance (base : Address) (units : Nat) : Address :=
  base + UInt64.ofNat units

/-- The address an offset away: absent before the entry, wrapped around past the last address. -/
def offset? (base : Address) (offset : Int) : Option Address :=
  if offset < 0 then
    if offset.natAbs ≤ base.toNat then some (base - UInt64.ofNat offset.natAbs) else none
  else some (base.advance offset.natAbs)

@[simp]
theorem advance_zero (base : Address) : base.advance 0 = base := by
  simp [advance]

theorem advance_advance (base : Address) (first second : Nat) :
    (base.advance first).advance second = base.advance (first + second) := by
  simp only [advance, UInt64.ofNat_add, UInt64.add_assoc]

/-- In both directions an offset leads to the word of the sum, where that is not negative. -/
theorem offset?_eq (base : Address) (offset : Int) :
    base.offset? offset =
      if 0 ≤ (base.toNat : Int) + offset then
        some (UInt64.ofNat ((base.toNat : Int) + offset).toNat)
      else none := by
  by_cases backward : offset < 0
  · rw [offset?, if_pos backward]
    by_cases reach : offset.natAbs ≤ base.toNat
    · have behind : ((base.toNat : Int) + offset).toNat = base.toNat - offset.natAbs := by omega
      rw [if_pos reach, if_pos (by omega), behind, UInt64.ofNat_sub reach, UInt64.ofNat_toNat]
    · rw [if_neg reach, if_neg (by omega)]
  · have ahead : ((base.toNat : Int) + offset).toNat = base.toNat + offset.natAbs := by omega
    rw [offset?, if_neg backward, if_pos (by omega), ahead, advance, UInt64.ofNat_add,
      UInt64.ofNat_toNat]

end Address
end DalvikFacts
