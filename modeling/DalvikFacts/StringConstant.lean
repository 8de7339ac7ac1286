import DalvikFacts.Text.Blank
import DalvikFacts.Text.Units

/-!
# String constants

The two texts that stand for a string constant in facts: its raw form, which survives trimming,
and its identifier, which is bounded in length.
-/

namespace DalvikFacts.StringConstant

/-- The greatest number of code units of an identifier. -/
def maxUnits : Nat := 256

/-- The raw form: a text that is empty or has blanks at an end is put between marks. -/
def encode (constant : String) : String :=
  if constant ≠ "" ∧ Text.isTrimmed constant then constant
  else "<<\"" ++ constant ++ "\">>"

/-- The identifier of a raw form: the form itself, or its hash when it is too long. -/
def identifier (raw : String) : String :=
  if (Text.units raw).length ≤ maxUnits then raw
  else "<<HASH:" ++ toString (Text.polynomialHash raw) ++ ">>"

end DalvikFacts.StringConstant
