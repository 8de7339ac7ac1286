import DalvikFacts.Container.Basic
import DalvikFacts.Instruction.Decode

/-!
# Decoding containers

The structure of container files.
-/

namespace DalvikFacts

open Decoder (Fields Variant)

/-- Decodes a type descriptor. -/
def Descriptor.decode : Decoder Descriptor :=
  Decoder.text.filterMap Descriptor.ofString?

/-- Decodes a list, empty when it is missing. -/
def Decoder.Fields.listOrEmpty {α : Type} (fields : Fields) (name : String) (item : Decoder α) :
    Option (List α) :=
  fields.orElse name (Decoder.list item) []

/-- Decodes a table, empty when it is missing. -/
def Decoder.Fields.table {α : Type} (fields : Fields) (name : String) (entry : Decoder α) :
    Option (Array α) :=
  (fields.listOrEmpty name entry).map List.toArray

/-- Decodes an optional value, absent when it is missing. -/
def Decoder.Fields.optional {α : Type} (fields : Fields) (name : String) (decoder : Decoder α) :
    Option (Option α) :=
  fields.orElse name (Decoder.option decoder) none

/-- Decodes a visibility. -/
def Visibility.decode : Decoder Visibility :=
  Decoder.named [("build", build), ("runtime", runtime), ("system", system)]

namespace AnnotationOf

/-- Decodes an annotation, given how its values are decoded. -/
def decode {ν : Type} (value : Decoder ν) : Decoder (AnnotationOf ν) :=
  let element : Decoder (String × ν) := Decoder.record ["name", "value"] fun fields => do
    return (← fields.required "name" Decoder.text, ← fields.required "value" value)
  Decoder.record ["visibility", "type", "elements"] fun fields => do
    return {
      visibility := ← fields.optional "visibility" Visibility.decode
      type := ← fields.required "type" Descriptor.decode
      elements := ← fields.listOrEmpty "elements" element }

end AnnotationOf

namespace Value

/-- Decodes a value given as a variant; `nested` decodes the values inside of it. -/
def ofVariant? (nested : Decoder Value) (variant : Variant) : Option Value :=
  match variant.name with
  | "byte" => variant.holding ((Decoder.signed 8).map byte)
  | "short" => variant.holding ((Decoder.signed 16).map short)
  | "char" => variant.holding ((Decoder.unsigned 16).map char)
  | "int" => variant.holding ((Decoder.signed 32).map int)
  | "long" => variant.holding ((Decoder.signed 64).map long)
  | "float" => variant.holding (Decoder.single.map float)
  | "double" => variant.holding (Decoder.double.map double)
  | "method-type" => variant.holding (decodeIndex.map methodType)
  | "method-handle" => variant.holding (decodeIndex.map methodHandle)
  | "string" => variant.holding (Decoder.text.map string)
  | "type" => variant.holding (Descriptor.decode.map type)
  | "field" => variant.holding (decodeIndex.map field)
  | "method" => variant.holding (decodeIndex.map method)
  | "enum" => variant.holding (decodeIndex.map enum)
  | "array" => variant.holding ((Decoder.list nested).map array)
  | "annotation" => variant.holding ((AnnotationOf.decode nested).map annotated)
  | "null" => variant.empty null
  | "boolean" => variant.holding (Decoder.bool.map boolean)
  | _ => none

/-- Decodes a value with at most the given number of values around each other. -/
def decodeWithin : Nat → Decoder Value
  | 0 => fun _ _ => none
  | levels + 1 => Decoder.variant (ofVariant? (decodeWithin levels))

/-- Decodes a value.  Each level of nesting opens an object, so the depth bounds the levels. -/
def decode : Decoder Value :=
  fun depth => decodeWithin (depth + 1) depth

end Value

/-- Decodes an annotation. -/
def decodeAnnotated : Decoder Annotation :=
  AnnotationOf.decode Value.decode

/-- Decodes a list of annotations, empty when it is missing. -/
def Decoder.Fields.annotations (fields : Fields) (name : String) : Option (List Annotation) :=
  fields.listOrEmpty name decodeAnnotated

/-- Decodes access flags. -/
def AccessFlags.decode : Decoder AccessFlags :=
  (Decoder.unsigned 32).map AccessFlags.mk

/-- Decodes an address or a number of code units. -/
def Address.decode : Decoder Address :=
  (Decoder.unsigned 64).map UInt64.ofNat

/-- Decodes a handler of a try block. -/
def CatchHandler.decode : Decoder CatchHandler :=
  Decoder.record ["exception_type", "addr"] fun fields => do
    return {
      exceptionType := ← fields.optional "exception_type" Descriptor.decode
      address := ← fields.required "addr" Address.decode }

/-- Decodes a try block. -/
def TryBlock.decode : Decoder TryBlock :=
  Decoder.record ["start_addr", "insn_count", "handlers"] fun fields => do
    return {
      start := ← fields.required "start_addr" Address.decode
      length := ← fields.required "insn_count" Address.decode
      handlers := ← fields.required "handlers" (Decoder.list CatchHandler.decode) }

namespace DebugItem

/-- How an item of some kind is made of its fields. -/
structure Form where
  names : List String
  build : Fields → Option DebugItem

/-- The kinds of debug items. -/
def forms : List (String × Form) :=
  let addr (fields : Fields) := fields.required "addr" Address.decode
  let register (fields : Fields) := fields.required "register" (Decoder.unsigned 16)
  [("line-number", ⟨["addr", "line"], fun fields => do
      return lineNumber (← addr fields) (← fields.required "line" (Decoder.unsigned 32))⟩),
    ("prologue-end", ⟨["addr"], fun fields => do return prologueEnd (← addr fields)⟩),
    ("epilogue-begin", ⟨["addr"], fun fields => do return epilogueBegin (← addr fields)⟩),
    ("start-local", ⟨["addr", "register", "name", "type"], fun fields => do
      return startLocal (← addr fields) (← register fields)
        (← fields.optional "name" Decoder.text) (← fields.optional "type" Descriptor.decode)⟩),
    ("end-local", ⟨["addr", "register"], fun fields => do
      return endLocal (← addr fields) (← register fields)⟩),
    ("restart-local", ⟨["addr", "register"], fun fields => do
      return restartLocal (← addr fields) (← register fields)⟩),
    ("set-source-file", ⟨["addr", "name"], fun fields => do
      return setSourceFile (← addr fields) (← fields.optional "name" Decoder.text)⟩)]

/--
Decodes a debug item: an object with its kind among its members, or an array that starts with its
kind.  Since the kind may come last, everything beside it is set aside first.
-/
def decode : Decoder DebugItem
  | depth + 1, .object members => do
    let members ← Decoder.members? members
    let (tags, rest) := members.partition (·.1 == "kind")
    let [(_, .string (some kind))] := tags | none
    let form ← forms.lookup kind
    guard (rest.all fun member => Decoder.keepable depth member.2)
    form.build (← Fields.ofMembers? form.names depth rest)
  | depth + 1, .array (.string (some kind) :: rest) => do
    let form ← forms.lookup kind
    guard (rest.all (Decoder.keepable depth))
    form.build (← Fields.ofItems? form.names depth rest)
  | _, _ => none

end DebugItem

/-- Decodes a method body. -/
def CodeItem.decode : Decoder CodeItem :=
  Decoder.record ["registers_size", "instructions", "tries", "debug_items"] fun fields => do
    return {
      registers := ← fields.required "registers_size" (Decoder.unsigned 16)
      instructions := ← fields.required "instructions" (Decoder.list Instr.decode)
      tries := ← fields.listOrEmpty "tries" TryBlock.decode
      debugItems := ← fields.listOrEmpty "debug_items" DebugItem.decode }

/-- Decodes a field reference. -/
def FieldRef.decode : Decoder FieldRef :=
  Decoder.record ["class", "name", "type"] fun fields => do
    return {
      owner := ← fields.required "class" Descriptor.decode
      name := ← fields.required "name" Decoder.text
      type := ← fields.required "type" Descriptor.decode }

/-- Decodes a method reference. -/
def MethodRef.decode : Decoder MethodRef :=
  Decoder.record ["class", "name", "params", "return"] fun fields => do
    return {
      owner := ← fields.required "class" Descriptor.decode
      name := ← fields.required "name" Decoder.text
      params := ← fields.listOrEmpty "params" Descriptor.decode
      returnType := ← fields.required "return" Descriptor.decode }

/-- Decodes a prototype. -/
def Proto.decode : Decoder Proto :=
  Decoder.record ["params", "return"] fun fields => do
    return {
      params := ← fields.required "params" (Decoder.list Descriptor.decode)
      returnType := ← fields.required "return" Descriptor.decode }

/-- Decodes the kind of a method handle. -/
def HandleKind.decode : Decoder HandleKind :=
  Decoder.named
    [("static-put", staticPut), ("static-get", staticGet), ("instance-put", instancePut),
      ("instance-get", instanceGet), ("invoke-static", invokeStatic),
      ("invoke-instance", invokeInstance), ("invoke-constructor", invokeConstructor),
      ("invoke-direct", invokeDirect), ("invoke-interface", invokeInterface)]

/-- Decodes the target of a method handle. -/
def HandleTarget.decode : Decoder HandleTarget :=
  Decoder.variant fun variant =>
    match variant.name with
    | "method" => variant.holding (decodeIndex.map method)
    | "field" => variant.holding (decodeIndex.map field)
    | _ => none

/-- Decodes a method handle. -/
def MethodHandle.decode : Decoder MethodHandle :=
  Decoder.record ["kind", "target"] fun fields => do
    return {
      kind := ← fields.required "kind" HandleKind.decode
      target := ← fields.required "target" HandleTarget.decode }

/-- Decodes a call site. -/
def CallSite.decode : Decoder CallSite :=
  Decoder.record ["bootstrap", "name", "proto"] fun fields => do
    return {
      bootstrap := ← fields.required "bootstrap" decodeIndex
      name := ← fields.required "name" Decoder.text
      proto := ← fields.required "proto" decodeIndex }

/-- Decodes a field definition. -/
def FieldDef.decode : Decoder FieldDef :=
  Decoder.record ["field", "access_flags", "initial_value", "annotations"] fun fields => do
    return {
      field := ← fields.required "field" decodeIndex
      flags := ← fields.required "access_flags" AccessFlags.decode
      initialValue := ← fields.optional "initial_value" Value.decode
      annotations := ← fields.annotations "annotations" }

/-- Decodes a method definition. -/
def MethodDef.decode : Decoder MethodDef :=
  Decoder.record ["method", "access_flags", "annotations", "parameter_annotations", "code"]
    fun fields => do
      return {
        method := ← fields.required "method" decodeIndex
        flags := ← fields.required "access_flags" AccessFlags.decode
        annotations := ← fields.annotations "annotations"
        parameterAnnotations :=
          ← fields.listOrEmpty "parameter_annotations" (Decoder.list decodeAnnotated)
        code := ← fields.optional "code" CodeItem.decode }

/-- Decodes a class. -/
def ClassDef.decode : Decoder ClassDef :=
  Decoder.record
    ["class", "superclass", "interfaces", "access_flags", "annotations", "fields", "methods",
      "source_file"]
    fun fields => do
      return {
        type := ← fields.required "class" Descriptor.decode
        superclass := ← fields.optional "superclass" Descriptor.decode
        interfaces := ← fields.listOrEmpty "interfaces" Descriptor.decode
        flags := ← fields.required "access_flags" AccessFlags.decode
        annotations := ← fields.annotations "annotations"
        fields := ← fields.listOrEmpty "fields" FieldDef.decode
        methods := ← fields.listOrEmpty "methods" MethodDef.decode
        sourceFile := ← fields.optional "source_file" Decoder.text }

/-- Decodes a container. -/
def Container.decode : Decoder Container :=
  Decoder.record
    ["name", "types", "strings", "fields", "methods", "protos", "method_handles", "call_sites",
      "classes"]
    fun fields => do
      return {
        name := ← fields.orElse "name" Decoder.text ""
        types := ← fields.table "types" Descriptor.decode
        strings := ← fields.table "strings" Decoder.text
        fields := ← fields.table "fields" FieldRef.decode
        methods := ← fields.table "methods" MethodRef.decode
        protos := ← fields.table "protos" Proto.decode
        methodHandles := ← fields.table "method_handles" MethodHandle.decode
        callSites := ← fields.table "call_sites" CallSite.decode
        classes := ← fields.listOrEmpty "classes" ClassDef.decode }

end DalvikFacts
