import DalvikFacts.Pattern.Basic

/-!
# Options

What can be chosen about a run.
-/

namespace DalvikFacts

/-- The options of a run. -/
structure Options where
  /-- The number of classes that are extracted in a row. -/
  groupSize : Nat
  /-- Whether the first failure of a group of classes stops the group and the containers after. -/
  failFast : Bool
  /-- The names of the application classes; all classes when absent. -/
  application : Option Pattern
  /-- The names of the classes that are extracted; all classes when absent. -/
  filter : Option Pattern
  /-- Whether phantom types and methods are written. -/
  phantoms : Bool

namespace Options

/-- The options of a run when nothing is chosen. -/
def standard : Options where
  groupSize := 80
  failFast := false
  application := none
  filter := none
  phantoms := true

/-- Whether a class belongs to the application. -/
def isApplication (options : Options) (cls : String) : Bool :=
  Pattern.passes options.application cls

/-- Whether a class is extracted. -/
def accepts (options : Options) (cls : String) : Bool :=
  Pattern.passes options.filter cls

end Options
end DalvikFacts
