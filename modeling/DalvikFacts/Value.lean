import DalvikFacts.Descriptor
import DalvikFacts.Decimal.Layout

/-!
# Constant values and annotations

The values found in field initializers and annotation elements.  A value that points into a table
of its container holds the position in that table.
-/

namespace DalvikFacts

/-- When an annotation is retained. -/
inductive Visibility
  | build
  | runtime
  | system
  deriving DecidableEq, Repr

/-- An annotation whose elements have values of the given type. -/
structure AnnotationOf (ν : Type) where
  visibility : Option Visibility
  type : Descriptor
  elements : List (String × ν)

/-- A constant value. -/
inductive Value
  | byte (value : Int)
  | short (value : Int)
  | char (unit : Nat)
  | int (value : Int)
  | long (value : Int)
  | float (value : Float32)
  | double (value : Float)
  | methodType (proto : Nat)
  | methodHandle (handle : Nat)
  | string (text : String)
  | type (type : Descriptor)
  | field (field : Nat)
  | method (method : Nat)
  | enum (field : Nat)
  | array (items : List Value)
  | annotated (mark : AnnotationOf Value)
  | null
  | boolean (value : Bool)

/-- An annotation. -/
abbrev Annotation := AnnotationOf Value

namespace AnnotationOf

/-- The value of the first element of a name. -/
def element? {ν : Type} (mark : AnnotationOf ν) (name : String) : Option ν :=
  mark.elements.lookup name

end AnnotationOf

/-- The word of a visibility. -/
def Visibility.word : Visibility → String
  | build => "build"
  | runtime => "runtime"
  | system => "system"

namespace Value

/-- Whether a value is a number. -/
def isNumber : Value → Bool
  | byte _ | short _ | int _ | long _ | float _ | double _ => true
  | _ => false

/-- Floating point values are written positionally from `0.0001` up to sixteen digits. -/
def layout : Decimal.Layout where
  lowest := -4
  highest := 15
  infinity := "inf"
  notANumber := "NaN"

end Value
end DalvikFacts
