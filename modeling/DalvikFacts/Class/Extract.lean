import DalvikFacts.Class.InitialValue
import DalvikFacts.Method.Extract
import DalvikFacts.Options

/-!
# Extraction of a class

The facts of one class: its kind and super types, then its fields, then its methods.  A field or
method that fails is reported and left out, unless failures are to stop the class.
-/

namespace DalvikFacts

/-- What the extraction of a class leaves beside its facts. -/
structure ExtractedClass where
  name : String
  superClass : Option String
  definedMethods : List String
  definedFields : List FieldSig
  accesses : List FieldAccess
  methods : Nat
  instructions : Nat
  failures : Nat
  deriving DecidableEq

/-- The root of the class hierarchy, the only class without super class. -/
def rootClass : String := "java.lang.Object"

namespace FieldDef

/-- Reports an initial value that is left out. -/
def reportOmission {σ : Type} (value : Value) : Emit σ Unit :=
  match InitialValue.omission? value with
  | some notice => Emit.notice notice
  | none => pure ()

/-- Emits the initial value of a field. -/
def writeInitialValue {σ : Type} (field : FieldSig) (value : Value) : Emit σ Unit := do
  reportOmission value
  match InitialValue.ofValue? value with
  | none => pure ()
  | some initial =>
    Emit.row .fieldInitialValue [field.id, initial.text]
    match initial with
    | .number text =>
      if field.type = "int" ∨ field.type = "long" then
        Emit.row .numConstantRaw [text, field.type]
    | .string text =>
      let _ ← Emit.stringConstant text
    | .other _ => pure ()

/-- Emits the facts of a field. -/
def write {σ : Type} (definition : FieldDef) (field : FieldSig) : Emit σ Unit := do
  Emit.row .field [field.id, field.owner, field.name, field.type]
  match definition.initialValue with
  | some value => writeInitialValue field value
  | none => pure ()
  (definition.flags.modifiers .fields).forM fun modifier =>
    Emit.row .fieldModifier [modifier, field.id]
  definition.annotations.forM fun mark =>
    Emit.row .fieldAnnotations [field.id, mark.type.sourceName]

/-- Emits the facts of a field of a known signature, and returns the signature. -/
def ofSig (definition : FieldDef) (field : FieldSig) : Extract FieldSig := do
  Extract.emit (definition.write field)
  return field

/-- Emits the facts of a field of a container. -/
def extract (container : Container) (definition : FieldDef) : Extract FieldSig := do
  let found ← Extract.lookup (SignatureCache.field container definition.field)
  definition.ofSig found.value

end FieldDef

namespace ClassDef

/-- The source name of the super class. -/
def superName? (cls : ClassDef) : Option String :=
  cls.superclass.map Descriptor.sourceName

/-- Emits the super class of a class. -/
def writeSuperClass {σ : Type} (cls : ClassDef) : Emit σ Unit :=
  match cls.superName? with
  | some superName => Emit.row .directSuperclass [cls.name, superName]
  | none => if cls.name = rootClass then pure () else Emit.notice (.noSuperClass cls.name)

/-- Emits the kind, modifiers and super types of a class. -/
def writeType {σ : Type} (cls : ClassDef) : Emit σ Unit := do
  cls.flags.classModifiers.forM fun modifier => Emit.row .classModifier [modifier, cls.name]
  Emit.row (if cls.isInterface then .interfaceType else .classType) [cls.name]
  cls.writeSuperClass
  cls.interfaces.forM fun superInterface =>
    Emit.row .directSuperinterface [cls.name, superInterface.sourceName]

/-- Emits the facts of a class apart from its members. -/
def writeHeader {σ : Type} (options : Options) (cls : ClassDef) : Emit σ Unit := do
  if options.isApplication cls.name then Emit.row .applicationClass [cls.name]
  cls.writeType
  cls.annotations.forM fun mark => Emit.row .typeAnnotations [cls.name, mark.type.sourceName]

/-- The extraction of a member, whose failure is reported unless it is to stop the class. -/
def member {α : Type} (options : Options) (cls : ClassDef) (action : Extract α) :
    Extract (Option α) := do
  match ← Script.attempt action with
  | .ok value => return some value
  | .error error =>
    if options.failFast then throw error
    else
      Extract.emit (Emit.notice (.skippedMember cls.name error))
      return none

/-- What the members of a class leave; those that failed are absent. -/
def summarize (cls : ClassDef) (fields : List (Option FieldSig))
    (methods : List (Option ExtractedMethod)) : ExtractedClass :=
  let extracted := methods.filterMap id
  { name := cls.name
    superClass := cls.superName?
    definedMethods := extracted.map ExtractedMethod.id
    definedFields := fields.filterMap id
    accesses := extracted.flatMap ExtractedMethod.accesses
    methods := extracted.length
    instructions := extracted.foldl (fun count method => count + method.instructions) 0
    failures := fields.countP Option.isNone + methods.countP Option.isNone }

/-- Emits the facts of a class of a container. -/
def extract (options : Options) (container : Container) (cls : ClassDef) :
    Extract ExtractedClass := do
  Extract.emit (cls.writeHeader options)
  let fields ← cls.fields.mapM fun field => member options cls (field.extract container)
  let methods ← cls.methods.mapM fun method => member options cls (method.extract container)
  return cls.summarize fields methods

end ClassDef
end DalvikFacts
