import DalvikFacts.Text.Quoted

/-!
# Type descriptors

The types of the machine and their two texts: the descriptor (`[I`, `La/B;`) found in containers,
and the source name (`int[]`, `a.B`) found in facts.  Reading a descriptor accepts exactly what
`Descriptor.toString` writes for a type of at most 255 dimensions.
-/

namespace DalvikFacts

/-- A type whose values are no references. -/
inductive Primitive
  | boolean
  | byte
  | short
  | char
  | int
  | long
  | float
  | double
  deriving DecidableEq, Hashable, Repr

/-- A type, `void` included.  An array is an array of elements, one dimension at a time. -/
inductive Descriptor
  | void
  | primitive (kind : Primitive)
  | object (name : String)
  | array (element : Descriptor)
  deriving DecidableEq, Hashable, Repr, Inhabited

namespace Primitive

/-- The letter of a primitive type in descriptors. -/
def letter : Primitive → Char
  | boolean => 'Z'
  | byte => 'B'
  | short => 'S'
  | char => 'C'
  | int => 'I'
  | long => 'J'
  | float => 'F'
  | double => 'D'

/-- The keyword of a primitive type. -/
def keyword : Primitive → String
  | boolean => "boolean"
  | byte => "byte"
  | short => "short"
  | char => "char"
  | int => "int"
  | long => "long"
  | float => "float"
  | double => "double"

/-- The primitive type of a letter. -/
def ofLetter? : Char → Option Primitive
  | 'Z' => some boolean
  | 'B' => some byte
  | 'S' => some short
  | 'C' => some char
  | 'I' => some int
  | 'J' => some long
  | 'F' => some float
  | 'D' => some double
  | _ => none

@[simp]
theorem ofLetter?_letter (kind : Primitive) : ofLetter? kind.letter = some kind := by
  cases kind <;> rfl

end Primitive

/-- Why a descriptor cannot be used. -/
inductive DescriptorError
  /-- The text is no descriptor. -/
  | malformed (text : String)
  /-- The type is no class. -/
  | notAClass
  deriving DecidableEq

/-- The text of a descriptor error. -/
def DescriptorError.message : DescriptorError → String
  | malformed text => "could not convert &str (" ++ Text.quoted text ++ ") into Type"
  | notAClass => "invalid type"

namespace Descriptor

/-- The characters of a descriptor. -/
def toChars : Descriptor → List Char
  | void => ['V']
  | primitive kind => [kind.letter]
  | object name => 'L' :: (name.toList ++ [';'])
  | array element => '[' :: element.toChars

/-- The descriptor as text. -/
protected def toString (type : Descriptor) : String :=
  String.ofList type.toChars

instance : ToString Descriptor := ⟨Descriptor.toString⟩

/-- The greatest number of dimensions of an array. -/
def maxDimensions : Nat := 255

/-- The type named by a descriptor without brackets, other than `void`. -/
def scalarOfChars? : List Char → Option Descriptor
  | [letter] => (Primitive.ofLetter? letter).map .primitive
  | 'L' :: rest =>
    if rest.getLast? = some ';' ∧ rest.dropLast ≠ [] then
      some (.object (String.ofList rest.dropLast))
    else none
  | _ => none

/-- The type named by a descriptor with at most the given number of brackets. -/
def ofCharsWithin? : Nat → List Char → Option Descriptor
  | dimensions + 1, '[' :: rest => (ofCharsWithin? dimensions rest).map .array
  | _, text => scalarOfChars? text

/-- The type named by a descriptor. -/
def ofChars? (text : List Char) : Option Descriptor :=
  if text = ['V'] then some .void else ofCharsWithin? maxDimensions text

/-- The type named by a descriptor. -/
def ofString? (text : String) : Option Descriptor :=
  ofChars? text.toList

/-- The type named by a descriptor, or why there is none. -/
def parse (text : String) : Except DescriptorError Descriptor :=
  match ofString? text with
  | some type => .ok type
  | none => .error (.malformed text)

/-- A class name with dots in the place of slashes. -/
def dotted (name : String) : String :=
  String.ofList (name.toList.map fun c => if c = '/' then '.' else c)

/-- The source name of a type. -/
def sourceName : Descriptor → String
  | void => "void"
  | primitive kind => kind.keyword
  | object name => dotted name
  | array element => element.sourceName ++ "[]"

/-- The name of a class, as it stands in its descriptor. -/
def className : Descriptor → Except DescriptorError String
  | object name => .ok name
  | _ => .error .notAClass

/-- Whether values of a type fill two registers. -/
def isWide : Descriptor → Bool
  | primitive .long | primitive .double => true
  | _ => false

/-- The number of registers that a value of a type fills. -/
def width (type : Descriptor) : Nat :=
  if type.isWide then 2 else 1

/-- Whether a type is an array. -/
def isArray : Descriptor → Bool
  | array _ => true
  | _ => false

/-- Whether a type is a class. -/
def isClass : Descriptor → Bool
  | object _ => true
  | _ => false

/-- Whether values of a type are references. -/
def isReference (type : Descriptor) : Bool :=
  type.isArray || type.isClass

/-- The type of the elements of an array. -/
def component? : Descriptor → Option Descriptor
  | array element => some element
  | _ => none

/-- The number of registers that values of some types fill one after the other. -/
def totalWidth : List Descriptor → Nat
  | [] => 0
  | type :: types => type.width + totalWidth types

end Descriptor
end DalvikFacts
