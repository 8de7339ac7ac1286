import DalvikFacts.AccessFlags
import DalvikFacts.Code
import DalvikFacts.Value

/-!
# Containers

A container is one compiled unit: the classes it defines, with their members and method bodies,
and the tables of references that instructions and members point into.
-/

namespace DalvikFacts

/-- A reference to a field. -/
structure FieldRef where
  owner : Descriptor
  name : String
  type : Descriptor
  deriving DecidableEq

/-- A reference to a method. -/
structure MethodRef where
  owner : Descriptor
  name : String
  params : List Descriptor
  returnType : Descriptor
  deriving DecidableEq, Hashable

/-- The parameter types and the return type of a method. -/
structure Proto where
  params : List Descriptor
  returnType : Descriptor
  deriving DecidableEq

/-- What a method handle does to its target. -/
inductive HandleKind
  | staticPut
  | staticGet
  | instancePut
  | instanceGet
  | invokeStatic
  | invokeInstance
  | invokeConstructor
  | invokeDirect
  | invokeInterface
  deriving DecidableEq

/-- The member that a method handle points to. -/
inductive HandleTarget
  | method (index : Nat)
  | field (index : Nat)
  deriving DecidableEq

/-- A method handle. -/
structure MethodHandle where
  kind : HandleKind
  target : HandleTarget
  deriving DecidableEq

/-- A call site, linked when first run by its bootstrap method. -/
structure CallSite where
  bootstrap : Nat
  name : String
  proto : Nat
  deriving DecidableEq

/-- A field defined by a class. -/
structure FieldDef where
  field : Nat
  flags : AccessFlags
  initialValue : Option Value
  annotations : List Annotation

/-- A method defined by a class. -/
structure MethodDef where
  method : Nat
  flags : AccessFlags
  annotations : List Annotation
  /-- The annotations of each parameter; parameters beyond the list have none. -/
  parameterAnnotations : List (List Annotation)
  code : Option CodeItem

/-- A class with its members. -/
structure ClassDef where
  type : Descriptor
  superclass : Option Descriptor
  interfaces : List Descriptor
  flags : AccessFlags
  annotations : List Annotation
  fields : List FieldDef
  methods : List MethodDef
  sourceFile : Option String

/-- One compiled unit. -/
structure Container where
  name : String
  types : Array Descriptor
  strings : Array String
  fields : Array FieldRef
  methods : Array MethodRef
  protos : Array Proto
  methodHandles : Array MethodHandle
  callSites : Array CallSite
  classes : List ClassDef

/-- A table of a container. -/
inductive Table
  | type
  | string
  | field
  | method
  | proto
  | methodHandle
  | callSite
  deriving DecidableEq

/-- A position beyond the end of a table. -/
structure MissingEntry where
  table : Table
  index : Nat
  deriving DecidableEq

namespace Table

/-- What messages call an entry of a table. -/
def label : Table → String
  | type => "type"
  | string => "string"
  | field => "field"
  | method => "method"
  | proto => "proto"
  | methodHandle => "method handle"
  | callSite => "call site"

end Table

/-- The text of a position. -/
def indexText (index : Nat) : String :=
  "#" ++ toString index

/-- The message about a missing entry. -/
def MissingEntry.message (missing : MissingEntry) : String :=
  "resource not found in container tables: " ++ missing.table.label ++ " " ++
    indexText missing.index

namespace HandleKind

/-- The reference kind of a handle, as numbered by the class file format. -/
def referenceKind : HandleKind → Nat
  | instanceGet => 1
  | staticGet => 2
  | instancePut => 3
  | staticPut => 4
  | invokeInstance => 5
  | invokeStatic => 6
  | invokeDirect => 7
  | invokeConstructor => 8
  | invokeInterface => 9

/-- Whether a handle reads or writes a field. -/
def isFieldAccessor : HandleKind → Bool
  | staticPut | staticGet | instancePut | instanceGet => true
  | _ => false

end HandleKind

/-- The descriptor of a method: its parameter types and return type. -/
def MethodRef.descriptor (method : MethodRef) : String :=
  "(" ++ String.join (method.params.map Descriptor.toString) ++ ")" ++ method.returnType.toString

namespace MethodDef

/-- Whether a method has no receiver. -/
def isStatic (method : MethodDef) : Bool := method.flags.has AccessFlags.staticBit

/-- Whether a method is implemented outside of the machine. -/
def isNative (method : MethodDef) : Bool := method.flags.has AccessFlags.nativeBit

/-- The annotations of a parameter. -/
def annotationsOf (method : MethodDef) (parameter : Nat) : List Annotation :=
  method.parameterAnnotations.getD parameter []

end MethodDef

namespace ClassDef

/-- The source name of a class. -/
def name (cls : ClassDef) : String := cls.type.sourceName

/-- Whether a class is an interface. -/
def isInterface (cls : ClassDef) : Bool := cls.flags.has AccessFlags.interfaceBit

end ClassDef

namespace Container

/-- The entry of a table. -/
def entry {α : Type} (table : Table) (entries : Array α) (index : Nat) : Except MissingEntry α :=
  match entries[index]? with
  | some found => .ok found
  | none => .error ⟨table, index⟩

/-- The type at a position. -/
def typeAt (container : Container) : Nat → Except MissingEntry Descriptor :=
  entry .type container.types

/-- The string at a position. -/
def stringAt (container : Container) : Nat → Except MissingEntry String :=
  entry .string container.strings

/-- The field reference at a position. -/
def fieldAt (container : Container) : Nat → Except MissingEntry FieldRef :=
  entry .field container.fields

/-- The method reference at a position. -/
def methodAt (container : Container) : Nat → Except MissingEntry MethodRef :=
  entry .method container.methods

/-- The prototype at a position. -/
def protoAt (container : Container) : Nat → Except MissingEntry Proto :=
  entry .proto container.protos

/-- The method handle at a position. -/
def methodHandleAt (container : Container) : Nat → Except MissingEntry MethodHandle :=
  entry .methodHandle container.methodHandles

/-- The call site at a position. -/
def callSiteAt (container : Container) : Nat → Except MissingEntry CallSite :=
  entry .callSite container.callSites

end Container
end DalvikFacts
