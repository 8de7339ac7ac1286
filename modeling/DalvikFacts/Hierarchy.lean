import DalvikFacts.FieldAccess
import Std.Data.HashMap
import Std.Data.HashSet
import Std.Data.TreeSet

/-!
# Class hierarchies

The registry of what the extraction of classes learns about the hierarchy: super classes, defined
fields and methods, references, and the field accesses that wait for their declaring class.  A
field is declared by the first class on the chain of super classes that defines a field of its
name and type.
-/

namespace DalvikFacts

/-- A field as it is defined by a class. -/
structure DefinedField where
  owner : String
  name : String
  type : String
  deriving DecidableEq, Hashable

/-- How many entities are referenced without being defined. -/
structure PhantomCounts where
  types : Nat
  methods : Nat
  fields : Nat
  deriving DecidableEq

/-- What is known about the classes of a run. -/
structure Hierarchy where
  /-- The super class of each class that has one. -/
  supers : Std.HashMap String String
  definedClasses : Std.HashSet String
  definedFields : Std.HashSet DefinedField
  definedMethods : Std.HashSet String
  /-- The field accesses that were not written yet, in order. -/
  accesses : Array FieldAccess
  referencedFields : Array FieldSig
  referencedTypes : Std.TreeSet String
  referencedMethods : Std.TreeSet String

namespace Hierarchy

/-- Nothing is known. -/
def empty : Hierarchy where
  supers := {}
  definedClasses := {}
  definedFields := {}
  definedMethods := {}
  accesses := #[]
  referencedFields := #[]
  referencedTypes := {}
  referencedMethods := {}

/-- The super class of a class. -/
def superOf? (hierarchy : Hierarchy) (cls : String) : Option String :=
  hierarchy.supers[cls]?

/-- Whether a class defines a field of the name and type of a reference. -/
def defines (hierarchy : Hierarchy) (field : FieldSig) (cls : String) : Bool :=
  hierarchy.definedFields.contains ⟨cls, field.name, field.type⟩

/-- The first class with a property on the chain of super classes from a class on, at most a number
of steps away. -/
def firstWithin (hierarchy : Hierarchy) (property : String → Bool) (steps : Nat) (cls : String) :
    Option String :=
  if property cls then some cls
  else
    match steps, hierarchy.superOf? cls with
    | steps + 1, some superName => hierarchy.firstWithin property steps superName
    | _, _ => none

/-- The class that declares a field.  A chain takes no more steps than there are links before it
ends or comes back to a class that was passed. -/
def declaringClass? (hierarchy : Hierarchy) (field : FieldSig) : Option String :=
  hierarchy.firstWithin (hierarchy.defines field) hierarchy.supers.size field.owner

/-- The identifier of the field that an access means: that of the declaring class, or the reference
itself when no class declares it. -/
def resolvedId (hierarchy : Hierarchy) (field : FieldSig) : String :=
  match hierarchy.declaringClass? field with
  | some cls => if cls = field.owner then field.id else Identifier.field cls field.type field.name
  | none => field.id

/-- Registers methods as defined. -/
def defineMethods (hierarchy : Hierarchy) (ids : List String) : Hierarchy :=
  { hierarchy with definedMethods := hierarchy.definedMethods.insertMany ids }

/-- Queues field accesses behind the others. -/
def queueAccesses (hierarchy : Hierarchy) (accesses : List FieldAccess) : Hierarchy :=
  { hierarchy with accesses := hierarchy.accesses.appendList accesses }

/-- Registers the super class of a class; it cannot change any more. -/
def linkSuper (hierarchy : Hierarchy) (cls superName : String) :
    Except ExtractionError Hierarchy :=
  match hierarchy.superOf? cls with
  | some previous =>
    if previous = superName then .ok hierarchy
    else .error (.superClassConflict cls previous superName)
  | none => .ok { hierarchy with supers := hierarchy.supers.insert cls superName }

theorem linkSuper_of_superOf? {hierarchy : Hierarchy} {cls previous : String}
    (linked : hierarchy.superOf? cls = some previous) (superName : String) :
    hierarchy.linkSuper cls superName =
      if previous = superName then .ok hierarchy
      else .error (.superClassConflict cls previous superName) := by
  rw [linkSuper, linked]

theorem linkSuper_of_new {hierarchy : Hierarchy} {cls : String}
    (new : hierarchy.superOf? cls = none) (superName : String) :
    hierarchy.linkSuper cls superName =
      .ok { hierarchy with supers := hierarchy.supers.insert cls superName } := by
  rw [linkSuper, new]

/-- Registers a class and the fields that it defines. -/
def defineFields (hierarchy : Hierarchy) (cls : String) (fields : List FieldSig) : Hierarchy :=
  { hierarchy with
    definedClasses := hierarchy.definedClasses.insert cls
    definedFields := hierarchy.definedFields.insertMany
      (fields.map fun field => (⟨cls, field.name, field.type⟩ : DefinedField)) }

/-- Registers a reference to a field. -/
def referField (hierarchy : Hierarchy) (field : FieldSig) : Hierarchy :=
  { hierarchy with referencedFields := hierarchy.referencedFields.push field }

/-- Registers a reference to a type; only classes count. -/
def referType (hierarchy : Hierarchy) (type : Descriptor) : Hierarchy :=
  if type.isClass then
    { hierarchy with referencedTypes := hierarchy.referencedTypes.insert type.sourceName }
  else hierarchy

/-- Registers a reference to a method. -/
def referMethod (hierarchy : Hierarchy) (id : String) : Hierarchy :=
  { hierarchy with referencedMethods := hierarchy.referencedMethods.insert id }

/-- The referenced classes that are not defined, in order. -/
def phantomTypes (hierarchy : Hierarchy) : List String :=
  hierarchy.referencedTypes.toList.filter fun type => !hierarchy.definedClasses.contains type

/-- The referenced methods that are not defined, in order. -/
def phantomMethods (hierarchy : Hierarchy) : List String :=
  hierarchy.referencedMethods.toList.filter fun id => !hierarchy.definedMethods.contains id

/-- The number of references to fields that no class declares. -/
def phantomFields (hierarchy : Hierarchy) : Nat :=
  hierarchy.referencedFields.toList.countP fun field => (hierarchy.declaringClass? field).isNone

/-- The numbers of phantom entities. -/
def phantomCounts (hierarchy : Hierarchy) : PhantomCounts where
  types := hierarchy.phantomTypes.length
  methods := hierarchy.phantomMethods.length
  fields := hierarchy.phantomFields

/-- Emits the queued field accesses, then the phantom entities if they are wanted.  The queue is
empty afterwards. -/
def conclude (phantoms : Bool) : Emit Hierarchy PhantomCounts := do
  let hierarchy ← get
  set { hierarchy with accesses := #[] }
  hierarchy.accesses.toList.forM fun access => access.write (hierarchy.resolvedId access.field)
  Emit.notice (.fieldAccesses hierarchy.accesses.size)
  if phantoms then
    hierarchy.phantomTypes.forM fun type => Emit.row .phantomType [type]
    hierarchy.phantomMethods.forM fun id => Emit.row .phantomMethod [id]
  return hierarchy.phantomCounts

end Hierarchy
end DalvikFacts
