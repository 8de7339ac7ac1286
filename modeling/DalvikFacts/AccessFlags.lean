/-!
# Access flags

The flags of classes, fields and methods are bit sets.  Each kind of entity knows its own flags;
other bits mean nothing.
-/

namespace DalvikFacts

/-- A kind of entity with access flags. -/
inductive FlagOwner
  | classes
  | fields
  | methods
  deriving DecidableEq

/-- A set of access flags, by bit position. -/
structure AccessFlags where
  bits : Nat
  deriving DecidableEq, Inhabited

namespace AccessFlags

/-- The flag of static members. -/
def staticBit : Nat := 3

/-- The flag of native methods. -/
def nativeBit : Nat := 8

/-- The flag of interfaces. -/
def interfaceBit : Nat := 9

/-- The known flags of a kind of entity, with their keywords, in bit order. -/
def known : FlagOwner → List (Nat × String)
  | .classes =>
    [(0, "public"), (1, "private"), (2, "protected"), (3, "static"), (4, "final"),
      (9, "interface"), (10, "abstract"), (12, "synthetic"), (13, "annotation"), (14, "enum")]
  | .fields =>
    [(0, "public"), (1, "private"), (2, "protected"), (3, "static"), (4, "final"),
      (6, "volatile"), (7, "transient"), (12, "synthetic"), (14, "enum")]
  | .methods =>
    [(0, "public"), (1, "private"), (2, "protected"), (3, "static"), (4, "final"),
      (5, "synchronized"), (6, "bridge"), (7, "varargs"), (8, "native"), (10, "abstract"),
      (11, "strictfp"), (12, "synthetic"), (16, "constructor"), (17, "declared-synchronized")]

/-- Whether a flag is set. -/
def has (flags : AccessFlags) (bit : Nat) : Bool :=
  flags.bits.testBit bit

/-- The keywords of the known flags that are set, in bit order. -/
def modifiers (flags : AccessFlags) (owner : FlagOwner) : List String :=
  ((known owner).filter fun flag => flags.has flag.1).map Prod.snd

/-- The keywords of a class that are no kind of type. -/
def classModifiers (flags : AccessFlags) : List String :=
  ((known .classes).filter fun flag => flags.has flag.1 && flag.1 != interfaceBit).map Prod.snd

end AccessFlags
end DalvikFacts
