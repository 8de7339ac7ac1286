import DalvikFacts.Proofs.Method.Heaps

/-!
# Names of instructions

Most identifiers of instructions hold the index of the instruction, the others a number counted for
their kind.  The kinds of the former are none of the latter, whatever the names of classes, methods
and fields are.  A table lists the instructions with their names, and the rows of an instruction
hold its name.
-/

namespace DalvikFacts

namespace Relation

/-- The column that holds the identifier of an instruction. -/
@[simp]
def insnColumn? : Relation → Option Nat
  | actualParam => some 1
  | arrayInitialValueFromConst | arrayInitialValueFromLocal | arrayInsnIndex | assignBinop
  | assignCast | assignHeapAllocation | assignInstanceOf | assignLocal | assignNumConstant
  | assignOperFrom | assignReturnValue | assignUnop | branch | dynamicMethodInvocation
  | dynamicMethodInvocationParamType | enterMonitor | exitMonitor | goto | ifVar | loadArrayIndex
  | lookupSwitch | lookupSwitchTarget | methodInvocationLine | operatorAt | polymorphicInvocation
  | returnValue | returnVoid | specialMethodInvocation | statementType | staticMethodInvocation
  | storeArrayIndex | superMethodInvocation | tableSwitch | tableSwitchTarget | throw
  | virtualMethodInvocation => some 0
  | _ => none

/-- The column that holds the index of that instruction. -/
@[simp]
def indexColumn? : Relation → Option Nat
  | arrayInitialValueFromConst | arrayInitialValueFromLocal | assignBinop | assignCast
  | assignHeapAllocation | assignInstanceOf | assignLocal | assignNumConstant | assignUnop | branch
  | dynamicMethodInvocation | enterMonitor | exitMonitor | goto | loadArrayIndex | lookupSwitch
  | returnValue | returnVoid | specialMethodInvocation | staticMethodInvocation | storeArrayIndex
  | superMethodInvocation | tableSwitch | throw | virtualMethodInvocation => some 1
  | _ => none

end Relation

namespace Instr

open MethodContext

/-- Whether the identifier of an instruction holds a number counted for its kind. -/
def isNumbered : Instr → Bool
  | throw _ | instanceField .. | staticField .. | invoke .. | invokePolymorphic ..
  | invokeCustom .. => true
  | _ => false

/-- The kinds under which an instruction is named. -/
def NamedAs (kind : String) : Instr → Prop
  | monitor action _ => kind = monitorKind action
  | returnVoid => kind = "return-void"
  | returnValue .. => kind = "return"
  | goto .. => kind = "goto"
  | branch .. | branchZero .. => kind = "if"
  | switch .. => kind = "switch"
  | throw exception => kind = Identifier.throwKind exception.toString
  | instanceField access .. | staticField access .. => ∃ field, kind = fieldKind access field
  | invoke .. | invokePolymorphic .. => ∃ callee : MethodSig, kind = callee.qualifiedName
  | invokeCustom .. => ∃ call, kind = siteKind call
  | _ => kind = assignKind

/-- The relations of the rows that hold the identifier of an instruction. -/
def ownRelations : Instr → List Relation
  | move .. => [.assignLocal, .statementType]
  | moveResult .. => [.assignHeapAllocation, .arrayInitialValueFromLocal]
  | returnVoid => [.returnVoid]
  | returnValue .. => [.returnValue]
  | const .. | constWide .. => [.assignNumConstant, .statementType]
  | constString .. | constClass .. | constMethodHandle .. | constMethodType .. | newInstance ..
  | newArray .. => [.assignHeapAllocation]
  | monitor action _ => [monitorRelation action]
  | checkCast .. => [.assignCast]
  | instanceOf .. => [.assignInstanceOf]
  | arrayLength .. | unop .. => [.assignUnop, .assignOperFrom, .statementType]
  | fillArrayData .. => [.arrayInitialValueFromConst]
  | throw _ => [.throw]
  | goto .. => [.goto]
  | switch kind _ _ => [switchRelation kind, .tableSwitchTarget, .lookupSwitchTarget]
  | compare .. | binop .. | binopInPlace .. | binopLiteral .. | binopSmallLiteral .. =>
    [.assignBinop, .assignOperFrom, .statementType]
  | branch .. | branchZero .. => [.branch, .ifVar, .operatorAt]
  | arrayAccess access .. => [arrayRelation access, .arrayInsnIndex]
  | instanceField access .. => [fieldRelation access true]
  | staticField access .. => [fieldRelation access false]
  | invoke kind .. =>
    [(CallKind.ofInvoke kind).relation, .actualParam, .methodInvocationLine, .assignReturnValue]
  | invokePolymorphic .. =>
    [.virtualMethodInvocation, .actualParam, .methodInvocationLine, .polymorphicInvocation,
      .assignReturnValue]
  | invokeCustom .. =>
    [.dynamicMethodInvocation, .actualParam, .dynamicMethodInvocationParamType, .assignReturnValue]
  | _ => []

theorem statementType_mem_ownRelations {instr : Instr} {type : StatementType}
    (typed : instr.statementType? = some type) : .statementType ∈ instr.ownRelations := by
  cases instr with
  | move | const | constWide | arrayLength | unop | compare | binop | binopInPlace | binopLiteral
  | binopSmallLiteral => simp [ownRelations]
  | _ => cases typed

/-! ## Kinds -/

/-- The kinds of the identifiers that hold an index. -/
def indexedKinds : List String :=
  [assignKind, "enter-monitor", "exit-monitor", "return-void", "return", "goto", "if", "switch"]

variable {instr : Instr} {kind : String}

theorem NamedAs.mem_indexedKinds (named : instr.NamedAs kind) (indexed : instr.isNumbered = false) :
    kind ∈ indexedKinds := by
  cases instr with
  | monitor action _ => cases named; cases action <;> decide
  | throw | instanceField | staticField | invoke | invokePolymorphic | invokeCustom =>
    cases indexed
  | _ => cases named; decide

/-- A numbered kind holds a mark that no other kind holds: a dot, a blank, or the start of the kind
of a field access. -/
theorem NamedAs.not_mem_indexedKinds (named : instr.NamedAs kind)
    (numbered : instr.isNumbered = true) : kind ∉ indexedKinds := by
  have unmarked : ∀ other ∈ indexedKinds, '.' ∉ other.toList ∧ ' ' ∉ other.toList ∧
      other.toList.take 3 ≠ "read-field-".toList.take 3 ∧
        other.toList.take 3 ≠ "write-field-".toList.take 3 := by
    decide
  intro member
  obtain ⟨no_dot, no_blank, no_read, no_write⟩ := unmarked kind member
  cases instr with
  | throw exception =>
    cases named
    exact no_blank (by simp [Identifier.throwKind])
  | instanceField access | staticField access =>
    obtain ⟨field, rfl⟩ := named
    cases access with
    | load => exact no_read (by simp [fieldKind])
    | store => exact no_write (by simp [fieldKind])
  | invoke | invokePolymorphic =>
    obtain ⟨callee, rfl⟩ := named
    exact no_dot (by simp [MethodSig.qualifiedName])
  | invokeCustom =>
    obtain ⟨call, rfl⟩ := named
    exact no_blank (by simp [siteKind])
  | _ => cases numbered

end Instr

/-! ## Tables of names -/

/-- Instructions with their identifiers. -/
abbrev NameTable := List (LocatedInstr × String)

namespace NameTable

/-- An identifier is that of the instruction at an index, which has rows in a relation. -/
def Lists (table : NameTable) (relation : Relation) (name : String) (index : Nat) : Prop :=
  ∃ here, (here, name) ∈ table ∧ relation ∈ here.instr.ownRelations ∧ here.index = index

/-- A row that holds the identifier of an instruction holds a known one, and its index. -/
def Credits (table : NameTable) (fact : Fact) : Prop :=
  ∀ column ∈ fact.relation.insnColumn?, ∃ name index, table.Lists fact.relation name index ∧
    fact.columns[column]? = some name ∧
    ∀ place ∈ fact.relation.indexColumn?, fact.columns[place]? = some (toString index)

/-- All rows among outputs hold known identifiers. -/
abbrev CreditsAll (table : NameTable) (outputs : List Output) : Prop :=
  AllFacts table.Credits outputs

variable {table wider : NameTable} {outputs others : List Output}

@[simp]
theorem lists_single {here : LocatedInstr} {own name : String} {relation : Relation} {index : Nat} :
    Lists [(here, own)] relation name index ↔
      name = own ∧ relation ∈ here.instr.ownRelations ∧ here.index = index := by
  constructor
  · rintro ⟨found, member, rest⟩
    cases List.mem_singleton.1 member
    exact ⟨rfl, rest⟩
  · rintro ⟨rfl, rest⟩
    exact ⟨here, List.mem_singleton_self _, rest⟩

theorem Lists.mono {relation : Relation} {name : String} {index : Nat}
    (lists : table.Lists relation name index) (subset : table ⊆ wider) :
    wider.Lists relation name index := by
  obtain ⟨here, member, rest⟩ := lists
  exact ⟨here, subset member, rest⟩

theorem CreditsAll.mono (credits : table.CreditsAll outputs) (subset : table ⊆ wider) :
    wider.CreditsAll outputs := by
  intro fact member column column_eq
  obtain ⟨name, index, lists, rest⟩ := credits fact member column column_eq
  exact ⟨name, index, lists.mono subset, rest⟩

theorem credits_principal {here : LocatedInstr} {name : String} {relation : Relation}
    {columns : List String} (own : relation ∈ here.instr.ownRelations)
    (insn_eq : relation.insnColumn? = some 0) (index_eq : relation.indexColumn? = some 1) :
    Credits [(here, name)] ⟨relation, name :: toString here.index :: columns⟩ := by
  intro column column_mem
  cases insn_eq.symm.trans column_mem
  refine ⟨name, here.index, lists_single.2 ⟨rfl, own, rfl⟩, rfl, fun place place_mem => ?_⟩
  cases index_eq.symm.trans place_mem
  rfl

/-- The row of an edge holds the name of its instruction. -/
theorem credits_edge {edge : Edge} (lists : table.Lists edge.relation edge.insn edge.index)
    (wellFormed : edge.WellFormed) {method : String} {target : Nat} :
    table.Credits ⟨edge.relation, AddressMap.edgeRow method edge target⟩ := by
  intro column column_mem
  refine ⟨edge.insn, edge.index, lists, ?_⟩
  unfold Edge.WellFormed at wellFormed
  unfold AddressMap.edgeRow
  cases key_eq : edge.key with
  | none =>
    rw [key_eq] at wellFormed
    have places : edge.relation.insnColumn? = some 0 ∧ edge.relation.indexColumn? = some 1 := by
      rcases wellFormed with relation_eq | relation_eq <;> rw [relation_eq] <;> exact ⟨rfl, rfl⟩
    cases places.1.symm.trans column_mem
    refine ⟨rfl, fun place place_mem => ?_⟩
    cases places.2.symm.trans place_mem
    rfl
  | some key =>
    rw [key_eq] at wellFormed
    have places : edge.relation.insnColumn? = some 0 ∧ edge.relation.indexColumn? = none := by
      rcases wellFormed with relation_eq | relation_eq <;> rw [relation_eq] <;> exact ⟨rfl, rfl⟩
    cases places.1.symm.trans column_mem
    refine ⟨rfl, fun place place_mem => ?_⟩
    cases places.2.symm.trans place_mem

end NameTable

namespace MethodContext

variable {cx : MethodContext} {here : LocatedInstr} {state : MethodState}
  {table : NameTable}

/-! ## Rows of instructions -/

section Rows

variable (here) (name : String)

@[simp]
theorem creditsAll_typing :
    NameTable.CreditsAll [(here, cx.assignInsn here.index)] [cx.typing here] := by
  unfold typing
  split
  next type typed => simp [NameTable.Credits, Instr.statementType_mem_ownRelations typed]
  next => simp

theorem creditsAll_allocated (own : .assignHeapAllocation ∈ here.instr.ownRelations)
    (heap type var : String) (isEmpty : Bool) :
    NameTable.CreditsAll [(here, cx.assignInsn here.index)]
      (cx.allocated here heap type var isEmpty) := by
  cases isEmpty <;> simp [allocated, object, NameTable.Credits, own]

theorem creditsAll_constantOutputs (own : .assignHeapAllocation ∈ here.instr.ownRelations)
    (dst : Reg) (heap : String) :
    NameTable.CreditsAll [(here, cx.assignInsn here.index)] (cx.constantOutputs here dst heap) := by
  simp [constantOutputs, object, NameTable.Credits, own]

theorem creditsAll_stringRows (text : String) : table.CreditsAll (stringRows text) := by
  simp [stringRows, NameTable.Credits]

theorem creditsAll_arrayTypeRows (type : Descriptor) :
    table.CreditsAll (arrayTypeRows type) := by
  have components : table.CreditsAll (type.component?.toList.map fun component =>
      .row .componentType [type.sourceName, component.sourceName]) :=
    allFacts_map fun _ => by simp [NameTable.Credits]
  simp [arrayTypeRows, components, NameTable.Credits]

theorem creditsAll_testOutputs (own : ∀ relation ∈ [Relation.ifVar, .operatorAt],
      relation ∈ here.instr.ownRelations) (test : TestOp) (left : Reg) (right : Option Reg) :
    NameTable.CreditsAll [(here, name)] (cx.testOutputs name test left right) := by
  have operand : ∀ position reg,
      NameTable.CreditsAll [(here, name)] (cx.testOperand name position reg) := by
    intro position reg
    simp [testOperand, NameTable.Credits, own]
  simp only [testOutputs, allFacts_append]
  refine ⟨⟨operand _ _, allFacts_flatMap fun _ _ => operand _ _⟩, ?_⟩
  simp [NameTable.Credits, own]

theorem creditsAll_paramRows (own : .actualParam ∈ here.instr.ownRelations) (first : Nat)
    (params : List Reg) : NameTable.CreditsAll [(here, name)] (cx.paramRows name first params) :=
  allFacts_flatMap fun _ _ => by
    simp [NameTable.Credits, own]

theorem creditsAll_callOutputs (call : Call)
    (own : ∀ relation ∈ [call.kind.relation, .actualParam, .methodInvocationLine],
      relation ∈ here.instr.ownRelations) :
    NameTable.CreditsAll [(here, name)] (cx.callOutputs here name call) := by
  have own_param : Relation.actualParam ∈ here.instr.ownRelations := own _ (by simp)
  have own_line : Relation.methodInvocationLine ∈ here.instr.ownRelations := own _ (by simp)
  have own_call : call.kind.relation ∈ here.instr.ownRelations := own _ (by simp)
  have receiver : ∀ receiver,
      NameTable.CreditsAll [(here, name)] (cx.receiverRows name receiver) := by
    intro receiver
    simp [receiverRows, NameTable.Credits, own_param]
  have lines : NameTable.CreditsAll [(here, name)] (cx.lineRows here name) :=
    allFacts_map fun _ => by
      simp [NameTable.Credits, own_line]
  have columns_eq : call.kind.relation.insnColumn? = some 0 ∧
      call.kind.relation.indexColumn? = some 1 := by
    cases call.kind <;> exact ⟨rfl, rfl⟩
  simp only [callOutputs, allFacts_append]
  refine ⟨allFacts_flatMap fun _ _ => receiver _,
    creditsAll_paramRows here name own_param _ _, lines,
    allFacts_row.2 ⟨?_, allFacts_nil⟩⟩
  exact NameTable.credits_principal own_call columns_eq.1 columns_eq.2

/-- The array filled with registers, where it is moved out. -/
theorem creditsAll_filledOutputs (own : ∀ relation ∈ [Relation.assignHeapAllocation,
      .arrayInitialValueFromLocal], relation ∈ here.instr.ownRelations) (dst : Reg) (type : String)
    (elements : List Reg) :
    NameTable.CreditsAll [(here, cx.assignInsn here.index)]
      (cx.resultOutputs here state dst (.filledArray type elements)) := by
  have own_element : .arrayInitialValueFromLocal ∈ here.instr.ownRelations := own _ (by simp)
  have array : NameTable.CreditsAll [(here, cx.assignInsn here.index)]
      (cx.allocated here (cx.nextHeap state type) type (cx.variableOf dst) elements.isEmpty) :=
    creditsAll_allocated here (own _ (by simp)) _ _ _ _
  have filling : NameTable.CreditsAll [(here, cx.assignInsn here.index)]
      (cx.filledElements here (cx.variableOf dst) (cx.nextHeap state type) elements) :=
    allFacts_flatMap fun _ _ => allFacts_mention.2 <|
      allFacts_row.2 ⟨NameTable.credits_principal own_element rfl rfl, by simp⟩
  exact allFacts_append.2 ⟨array, filling⟩

/-- The rows of elements hold the names of the instructions that wait for them. -/
theorem creditsAll_payloadOutputs (width : Nat) (values : List Int) {fills : List ArrayFill}
    (listed : ∀ fill ∈ fills,
      table.Lists .arrayInitialValueFromConst (cx.assignInsn fill.index) fill.index) :
    table.CreditsAll (cx.payloadOutputs here width values fills) := by
  have element : ∀ type, ∀ fill ∈ fills, table.CreditsAll (cx.filled type values fill) := by
    intro type fill member
    refine allFacts_mention.2 (allFacts_flatMap fun _ _ => ?_)
    refine allFacts_row.2 ⟨by simp [NameTable.Credits],
      allFacts_row.2 ⟨?_, by simp⟩⟩
    intro column column_mem
    cases column_mem
    refine ⟨_, _, listed fill member, rfl, fun place place_mem => ?_⟩
    cases place_mem
    rfl
  unfold payloadOutputs
  split
  · simp
  · split
    · simp
    · exact allFacts_flatMap (element _)

theorem creditsAll_fillNotices (offset : Int) (newArray : Option NewArray) :
    table.CreditsAll (cx.fillNotices here offset newArray) := by
  unfold fillNotices
  split
  · simp
  · split <;> split <;> simp

theorem creditsAll_switchOutputs (kind : SwitchKind)
    (own : switchRelation kind ∈ here.instr.ownRelations) (key : Reg) (offset : Int) :
    NameTable.CreditsAll [(here, cx.switchInsn here.index)]
      (cx.switchOutputs here kind key offset) := by
  have noticed : NameTable.CreditsAll [(here, cx.switchInsn here.index)]
      (cx.switchNotices here offset) := by
    unfold switchNotices
    split <;> simp
  have columns_eq : (switchRelation kind).insnColumn? = some 0 ∧
      (switchRelation kind).indexColumn? = some 1 := by
    cases kind <;> exact ⟨rfl, rfl⟩
  exact allFacts_append.2 ⟨allFacts_mention.2 <|
    allFacts_row.2 ⟨NameTable.credits_principal own columns_eq.1 columns_eq.2, by simp⟩,
    noticed⟩

theorem creditsAll_customCallOutputs (call : CustomCall)
    (own : ∀ relation ∈ [Relation.dynamicMethodInvocation, .actualParam,
      .dynamicMethodInvocationParamType], relation ∈ here.instr.ownRelations) :
    NameTable.CreditsAll [(here, name)] (cx.customCallOutputs here name call) := by
  have own_param : Relation.actualParam ∈ here.instr.ownRelations := own _ (by simp)
  have own_type : Relation.dynamicMethodInvocationParamType ∈ here.instr.ownRelations :=
    own _ (by simp)
  have own_call : Relation.dynamicMethodInvocation ∈ here.instr.ownRelations := own _ (by simp)
  have types : ∀ texts, NameTable.CreditsAll [(here, name)]
      (positioned .dynamicMethodInvocationParamType name texts) := by
    intro texts
    refine allFacts_map fun _ => ?_
    simp [NameTable.Credits, own_type]
  refine allFacts_append.2 ⟨creditsAll_paramRows here name own_param _ _,
    allFacts_row.2 ⟨NameTable.credits_principal own_call rfl rfl, ?_⟩⟩
  rw [allFacts_append, allFacts_append]
  exact ⟨types _, creditsAll_stringRows _, creditsAll_stringRows _⟩

end Rows

end MethodContext

end DalvikFacts
