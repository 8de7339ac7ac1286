import DalvikFacts.Fact.Emit
import DalvikFacts.Signature

/-!
# Field accesses

A field access names the field through the class used at the access, which may inherit it.  Its
row is written once the declaring class is known, with the identifier of the field found there.
-/

namespace DalvikFacts

/-- A field access waiting for its declaring class.  Accesses of static fields have no base. -/
structure FieldAccess where
  relation : Relation
  insn : String
  index : Nat
  var : String
  base : Option String
  field : FieldSig
  method : String
  deriving DecidableEq

namespace FieldAccess

/-- The columns of an access to the field of the given identifier. -/
def columns (access : FieldAccess) (field : String) : List String :=
  [access.insn, toString access.index, access.var] ++ access.base.toList ++
    [field, access.method]

/-- Emits the row of an access. -/
def write {σ : Type} (access : FieldAccess) (field : String) : Emit σ Unit :=
  Emit.row access.relation (access.columns field)

end FieldAccess
end DalvikFacts
