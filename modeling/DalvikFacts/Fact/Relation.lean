/-!
# Relations

The closed set of relations that facts are written to.
-/

namespace DalvikFacts

/-- A relation of the fact base. -/
inductive Relation
  | actualParam
  | applicationClass
  | arrayInitialValueFromConst
  | arrayInitialValueFromLocal
  | arrayInsnIndex
  | arrayType
  | assignBinop
  | assignCast
  | assignHeapAllocation
  | assignInstanceOf
  | assignLocal
  | assignNumConstant
  | assignOperFrom
  | assignReturnValue
  | assignUnop
  | classHeap
  | classModifier
  | classType
  | componentType
  | dexInstructionAddressMap
  | directSuperclass
  | directSuperinterface
  | dynamicMethodInvocation
  | dynamicMethodInvocationParamType
  | emptyArray
  | enterMonitor
  | exceptionHandler
  | exceptionHandlerFormalParam
  | exceptionHandlerPrevious
  | exitMonitor
  | field
  | fieldAnnotations
  | fieldInitialValue
  | fieldModifier
  | formalParam
  | goto
  | branch
  | ifVar
  | interfaceType
  | loadArrayIndex
  | loadInstanceField
  | loadStaticField
  | lookupSwitch
  | lookupSwitchTarget
  | method
  | methodAnnotations
  | methodDeclaresException
  | methodHandleConstant
  | methodInvocationLine
  | methodModifier
  | methodTypeConstant
  | methodTypeConstantParam
  | nativeMethodId
  | nativeReturnVar
  | normalHeap
  | numConstantRaw
  | operatorAt
  | paramAnnotations
  | phantomMethod
  | phantomType
  | polymorphicInvocation
  | returnValue
  | returnVoid
  | specialMethodInvocation
  | statementType
  | staticMethodInvocation
  | storeArrayIndex
  | storeInstanceField
  | storeStaticField
  | stringConstant
  | stringRaw
  | superMethodInvocation
  | tableSwitch
  | tableSwitchTarget
  | thisVar
  | throw
  | typeAnnotations
  | varDeclaringMethod
  | varType
  | virtualMethodInvocation
  deriving DecidableEq, Hashable, Repr

namespace Relation

/-- The name of a relation. -/
def name : Relation → String
  | actualParam => "ActualParam"
  | applicationClass => "ApplicationClass"
  | arrayInitialValueFromConst => "ArrayInitialValueFromConst"
  | arrayInitialValueFromLocal => "ArrayInitialValueFromLocal"
  | arrayInsnIndex => "ArrayInsnIndex"
  | arrayType => "ArrayType"
  | assignBinop => "AssignBinop"
  | assignCast => "AssignCast"
  | assignHeapAllocation => "AssignHeapAllocation"
  | assignInstanceOf => "AssignInstanceOf"
  | assignLocal => "AssignLocal"
  | assignNumConstant => "AssignNumConstant"
  | assignOperFrom => "AssignOperFrom"
  | assignReturnValue => "AssignReturnValue"
  | assignUnop => "AssignUnop"
  | classHeap => "ClassHeap"
  | classModifier => "ClassModifier"
  | classType => "ClassType"
  | componentType => "ComponentType"
  | dexInstructionAddressMap => "DexInstructionAddressMap"
  | directSuperclass => "DirectSuperclass"
  | directSuperinterface => "DirectSuperinterface"
  | dynamicMethodInvocation => "DynamicMethodInvocation"
  | dynamicMethodInvocationParamType => "DynamicMethodInvocation-ParamType"
  | emptyArray => "EmptyArray"
  | enterMonitor => "EnterMonitor"
  | exceptionHandler => "ExceptionHandler"
  | exceptionHandlerFormalParam => "ExceptionHandler-FormalParam"
  | exceptionHandlerPrevious => "ExceptionHandler-Previous"
  | exitMonitor => "ExitMonitor"
  | field => "Field"
  | fieldAnnotations => "Field-Annotation"
  | fieldInitialValue => "FieldInitialValue"
  | fieldModifier => "Field-Modifier"
  | formalParam => "FormalParam"
  | goto => "Goto"
  | branch => "If"
  | ifVar => "IfVar"
  | interfaceType => "InterfaceType"
  | loadArrayIndex => "LoadArrayIndex"
  | loadInstanceField => "LoadInstanceField"
  | loadStaticField => "LoadStaticField"
  | lookupSwitch => "LookupSwitch"
  | lookupSwitchTarget => "LookupSwitch-Target"
  | method => "Method"
  | methodAnnotations => "Method-Annotation"
  | methodDeclaresException => "Method-DeclaresException"
  | methodHandleConstant => "MethodHandleConstant"
  | methodInvocationLine => "MethodInvocation-Line"
  | methodModifier => "Method-Modifier"
  | methodTypeConstant => "MethodTypeConstant"
  | methodTypeConstantParam => "MethodTypeConstantParam"
  | nativeMethodId => "NativeMethodId"
  | nativeReturnVar => "NativeReturnVar"
  | normalHeap => "NormalHeap"
  | numConstantRaw => "NumConstantRaw"
  | operatorAt => "OperatorAt"
  | paramAnnotations => "Param-Annotation"
  | phantomMethod => "PhantomMethod"
  | phantomType => "PhantomType"
  | polymorphicInvocation => "PolymorphicInvocation"
  | returnValue => "Return"
  | returnVoid => "ReturnVoid"
  | specialMethodInvocation => "SpecialMethodInvocation"
  | statementType => "StatementType"
  | staticMethodInvocation => "StaticMethodInvocation"
  | storeArrayIndex => "StoreArrayIndex"
  | storeInstanceField => "StoreInstanceField"
  | storeStaticField => "StoreStaticField"
  | stringConstant => "StringConstant"
  | stringRaw => "StringRaw"
  | superMethodInvocation => "SuperMethodInvocation"
  | tableSwitch => "TableSwitch"
  | tableSwitchTarget => "TableSwitch-Target"
  | thisVar => "ThisVar"
  | throw => "Throw"
  | typeAnnotations => "Type-Annotation"
  | varDeclaringMethod => "Var-DeclaringMethod"
  | varType => "Var-Type"
  | virtualMethodInvocation => "VirtualMethodInvocation"

/-- All relations, in the order of their files. -/
def all : List Relation :=
  [.actualParam, .applicationClass, .arrayInitialValueFromConst, .arrayInitialValueFromLocal,
    .arrayInsnIndex, .arrayType, .assignBinop, .assignCast, .assignHeapAllocation,
    .assignInstanceOf, .assignLocal, .assignNumConstant, .assignOperFrom, .assignReturnValue,
    .assignUnop, .classHeap, .classModifier, .classType, .componentType,
    .dexInstructionAddressMap, .directSuperclass, .directSuperinterface,
    .dynamicMethodInvocation, .dynamicMethodInvocationParamType, .emptyArray, .enterMonitor,
    .exceptionHandler, .exceptionHandlerFormalParam, .exceptionHandlerPrevious, .exitMonitor,
    .field, .fieldAnnotations, .fieldInitialValue, .fieldModifier, .formalParam, .goto, .branch,
    .ifVar, .interfaceType, .loadArrayIndex, .loadInstanceField, .loadStaticField, .lookupSwitch,
    .lookupSwitchTarget, .method, .methodAnnotations, .methodDeclaresException,
    .methodHandleConstant, .methodInvocationLine, .methodModifier, .methodTypeConstant,
    .methodTypeConstantParam, .nativeMethodId, .nativeReturnVar, .normalHeap, .numConstantRaw,
    .operatorAt, .paramAnnotations, .phantomMethod, .phantomType, .polymorphicInvocation,
    .returnValue, .returnVoid, .specialMethodInvocation, .statementType, .staticMethodInvocation,
    .storeArrayIndex, .storeInstanceField, .storeStaticField, .stringConstant, .stringRaw,
    .superMethodInvocation, .tableSwitch, .tableSwitchTarget, .thisVar, .throw, .typeAnnotations,
    .varDeclaringMethod, .varType, .virtualMethodInvocation]

/-- The name of the file of a relation. -/
def fileName (relation : Relation) : String :=
  relation.name ++ ".facts"

/-- The relation of a name. -/
def ofName? (name : String) : Option Relation :=
  all.find? fun relation => relation.name == name

theorem mem_all (relation : Relation) : relation ∈ all := by
  cases relation <;> decide

end Relation
end DalvikFacts
