import DalvikFacts.Method.State

/-!
# Method headers

The facts of a method apart from its body: its names and modifiers, its annotations, its
parameters and receiver, and for a native method its symbol and result.
-/

namespace DalvikFacts

/-- The annotation that lists the exceptions a method declares. -/
def throwsMark : String := "dalvik.annotation.Throws"

/-- The exception types listed by an annotation. -/
def AnnotationOf.declaredExceptions (mark : Annotation) : List Descriptor :=
  if mark.type.sourceName = throwsMark then
    match mark.element? "value" with
    | some (.array values) => values.filterMap fun
      | .type type => some type
      | _ => none
    | _ => []
  else []

namespace MethodContext

/-- The number of registers taken by the receiver. -/
def receiverWidth (cx : MethodContext) : Nat :=
  if cx.definition.isStatic then 0 else 1

/-- The first registers of successive parameters, counted from the first parameter register. -/
def slotsFrom (slot : Nat) : List Descriptor → List Nat
  | [] => []
  | type :: types => slot :: slotsFrom (slot + type.width) types

/-- A parameter of a method: position, first register and source name of its type. -/
structure Parameter where
  position : Nat
  slot : Nat
  type : String

/-- The parameters of a method. -/
def parameters (cx : MethodContext) : List Parameter :=
  ((cx.sig.params.zip (slotsFrom cx.receiverWidth cx.sig.paramTypes)).zipIdx).map
    fun ((type, slot), position) => ⟨position, slot, type⟩

/-- Emits the name of the method and its parts. -/
def writeSignature {σ : Type} (cx : MethodContext) : Emit σ Unit :=
  Emit.row .method
    [cx.id, cx.sig.name, cx.sig.paramList, cx.sig.owner, cx.sig.returnType, cx.sig.descriptor,
      toString cx.sig.arity]

/-- Emits an annotation of the method. -/
def writeAnnotationOf {σ : Type} (cx : MethodContext) (mark : Annotation) :
    Emit σ Unit := do
  Emit.row .methodAnnotations [cx.id, mark.type.sourceName]
  mark.declaredExceptions.forM fun exception =>
    Emit.row .methodDeclaresException [exception.sourceName, cx.id]

/-- Emits a parameter with its type and annotations. -/
def writeParameter (cx : MethodContext) (parameter : Parameter) : MethodEmit Unit := do
  let var := Identifier.parameter cx.id parameter.slot
  cx.declare var
  Emit.row .formalParam [toString parameter.position, cx.id, var]
  Emit.row .varType [var, parameter.type]
  (cx.definition.annotationsOf parameter.position).forM fun mark =>
    Emit.row .paramAnnotations
      [cx.id, toString parameter.position, mark.type.sourceName]

/-- Emits the receiver of the method. -/
def writeThis (cx : MethodContext) : MethodEmit Unit := do
  let this := Identifier.receiver cx.id
  cx.declare this
  Emit.row .thisVar [cx.id, this]
  Emit.row .varType [this, cx.sig.owner]

/-- Emits the symbol of a native method, and the variable of its result. -/
def writeNative (cx : MethodContext) : MethodEmit Unit := do
  Emit.row .nativeMethodId [cx.id, Identifier.nativeSymbol cx.sig.owner cx.sig.name]
  if !cx.sig.returnsVoid then
    let var := Identifier.nativeReturn cx.id
    cx.declare var
    Emit.row .nativeReturnVar [var, cx.id]
    Emit.row .varType [var, cx.sig.returnType]

/-- Emits the header of the method. -/
def writeHeader (cx : MethodContext) : MethodEmit Unit := do
  cx.writeSignature
  cx.definition.annotations.forM cx.writeAnnotationOf
  (cx.definition.flags.modifiers .methods).forM fun modifier =>
    Emit.row .methodModifier [modifier, cx.id]
  cx.parameters.forM cx.writeParameter
  if !cx.definition.isStatic then cx.writeThis
  if cx.definition.isNative then cx.writeNative

end MethodContext
end DalvikFacts
