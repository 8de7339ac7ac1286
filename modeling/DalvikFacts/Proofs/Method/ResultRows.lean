import DalvikFacts.Proofs.Method.Names
import DalvikFacts.Proofs.Method.OperandForms
import DalvikFacts.Proofs.Method.Results
import DalvikFacts.Proofs.Method.StatementRows
import Mathlib

/-!
# Rows of results

An instruction that moves a result out writes what the instruction before it has left: the row of a
result under the name of an invocation, or an array with the registers that fill it.  Every
instruction is listed with the names that it gives, so that the rows can be told from the list.
-/

namespace DalvikFacts

/-- The relations of invocations. -/
def invocationRelations : List Relation :=
  [.staticMethodInvocation, .specialMethodInvocation, .virtualMethodInvocation,
    .superMethodInvocation, .dynamicMethodInvocation]

/-- The first two columns of the rows of invocations among facts: their names and indices. -/
abbrev invocationsAmong (facts : List Fact) : List (List String) :=
  readAmong invocationRelations (·.columns.take 2) facts

namespace Instr

/-- The register to which an instruction moves a result. -/
def resultTo? : Instr → Option Reg
  | moveResult _ dst => some dst
  | _ => none

/-- The registers with which an instruction fills an array. -/
def filling? : Instr → Option (List Reg)
  | filledNewArray operands _ => some operands.registers
  | _ => none

/-- The register to which an instruction assigns an object that it allocates, given the instruction
before it: an array filled with registers is allocated where it is moved. -/
def allocates? (previous : Option Instr) : Instr → Option Reg
  | constString _ dst _ | constClass dst _ | constMethodHandle dst _ | constMethodType dst _
  | newInstance dst _ | newArray dst _ _ => some dst
  | moveResult _ dst => (previous.bind filling?).map fun _ => dst
  | _ => none

variable {instr : Instr}

theorem filling?_of_isInvocation (invokes : instr.isInvocation) : instr.filling? = none := by
  cases instr with
  | filledNewArray => cases invokes
  | _ => rfl

theorem notMem_relations_of_still (still : instr.resultTo? = none) {relation : Relation}
    (result_relation : relation ∈ [Relation.assignReturnValue, .arrayInitialValueFromLocal]) :
    relation ∉ instr.relations := by
  simp only [List.mem_cons, List.not_mem_nil, or_false] at result_relation
  cases instr with
  | moveResult => cases still
  | _ => rcases result_relation with rfl | rfl <;> simp [relations, MethodContext.callRelations]

theorem resultTo?_of_isInvocation (invokes : instr.isInvocation) : instr.resultTo? = none := by
  cases instr with
  | moveResult => cases invokes
  | _ => rfl

theorem notMem_relations_of_not_isInvocation (uninvoked : ¬ instr.isInvocation)
    {relation : Relation} (own : relation ∈ instr.relations) : relation ∉ invocationRelations := by
  intro known
  simp only [invocationRelations, List.mem_cons, List.not_mem_nil, or_false] at known
  cases instr with
  | invoke | invokePolymorphic | invokeCustom => exact uninvoked rfl
  | _ =>
    rcases known with rfl | rfl | rfl | rfl | rfl <;>
      simp [relations, MethodContext.resultRelations] at own

theorem isInvocation_of_filling? {registers : List Reg}
    (filling_eq : instr.filling? = some registers) : instr.isInvocation = false := by
  cases instr with
  | filledNewArray => rfl
  | _ => cases filling_eq

end Instr

/-- An instruction with the names that it gives: to itself if it is an invocation, and to the object
that it allocates. -/
structure NamedInstr where
  here : LocatedInstr
  insn : String
  heap : String

/-- The instruction itself. -/
def NamedInstr.instr (own : NamedInstr) : Instr :=
  own.here.instr

/-- What waits as a result has been made by an instruction. -/
def Producer.MadeBy (maker : NamedInstr) : Producer → Prop
  | invocation insn => maker.instr.isInvocation ∧ insn = maker.insn
  | filledArray _ elements => maker.instr.filling? = some elements

namespace NamedInstr

variable (cx : MethodContext) (previous : Option NamedInstr) (own : NamedInstr)

/-- The name and the index of an invocation. -/
def invocation? : Option (List String) :=
  if own.instr.isInvocation then some [own.insn, toString own.here.index] else none

/-- The row of the result of an invocation, moved out by the instruction next to it. -/
def returned? : Option (List String) :=
  match previous, own.instr.resultTo? with
  | some maker, some dst =>
    if maker.instr.isInvocation then some [maker.insn, cx.variableOf dst] else none
  | _, _ => none

/-- The rows of the registers that fill an array, moved out by the instruction next to it. -/
def elements : List (List String) :=
  match previous.bind (·.instr.filling?), own.instr.resultTo? with
  | some registers, some dst =>
    registers.zipIdx.map fun (element, position) =>
      [cx.assignInsn own.here.index, toString own.here.index, cx.variableOf dst, toString position,
        cx.variableOf element, own.heap, cx.id]
  | _, _ => []

/-- The row of the object that an instruction allocates. -/
def allocated? : Option (List String) :=
  (own.instr.allocates? (previous.map instr)).map fun dst =>
    [cx.assignInsn own.here.index, toString own.here.index, own.heap, cx.variableOf dst, cx.id,
      Identifier.lineText (cx.line? own.here)]

end NamedInstr

namespace MethodContext

/-- The rows about invocations, their results and allocated objects among facts are those of
instructions. -/
structure ResultRows (cx : MethodContext) (instrs : List (Option NamedInstr × NamedInstr))
    (facts : List Fact) : Prop where
  invocations : invocationsAmong facts = instrs.filterMap fun (_, own) => own.invocation?
  returns : rowsIn .assignReturnValue facts =
    instrs.filterMap fun (previous, own) => own.returned? cx previous
  elements : rowsIn .arrayInitialValueFromLocal facts =
    instrs.flatMap fun (previous, own) => own.elements cx previous
  allocations : rowsIn .assignHeapAllocation facts =
    instrs.filterMap fun (previous, own) => own.allocated? cx previous

variable {cx : MethodContext} {here : LocatedInstr} {state next final : MethodState}
  {outputs : List Output}

theorem ResultRows.append {instrs more : List (Option NamedInstr × NamedInstr)}
    {facts others : List Fact} (first : cx.ResultRows instrs facts)
    (rest : cx.ResultRows more others) : cx.ResultRows (instrs ++ more) (facts ++ others) where
  invocations := by
    simp only [readAmong_append, first.invocations, rest.invocations, List.filterMap_append]
  returns := by
    rw [rowsIn_append, first.returns, rest.returns, List.filterMap_append]
  elements := by
    rw [rowsIn_append, first.elements, rest.elements, List.flatMap_append]
  allocations := by
    rw [rowsIn_append, first.allocations, rest.allocations, List.filterMap_append]

/-- A result that was made just before an index was made by the instruction there. -/
def Awaits (state : MethodState) (index : Nat) (previous : Option NamedInstr) : Prop :=
  ∀ pending, state.carry.result = some pending → pending.index < index ∧
    (pending.index + 1 = index → ∃ maker ∈ previous, pending.producer.MadeBy maker)

/-! ## Instructions -/

theorem relation_paramRows {insn : String} {first : Nat} {params : List Reg} {fact : Fact}
    (member : fact ∈ factsAmong (cx.paramRows insn first params)) :
    fact.relation = .actualParam := by
  rw [paramRows, factsAmong_flatMap] at member
  obtain ⟨item, -, written⟩ := List.mem_flatMap.1 member
  cases List.mem_singleton.1 written
  rfl

theorem relation_receiverRows {insn : String} {receivers : List Reg} {fact : Fact}
    (member : fact ∈ factsAmong (receivers.flatMap (cx.receiverRows insn))) :
    fact.relation = .actualParam := by
  rw [factsAmong_flatMap] at member
  obtain ⟨receiver, -, written⟩ := List.mem_flatMap.1 member
  cases List.mem_singleton.1 written
  rfl

theorem invocationsAmong_paramRows (insn : String) (first : Nat) (params : List Reg) :
    invocationsAmong (factsAmong (cx.paramRows insn first params)) = [] := by
  apply readAmong_eq_nil
  intro fact member
  rw [relation_paramRows member]
  decide

theorem invocationsAmong_callOutputs (insn : String) (call : Call) :
    invocationsAmong (factsAmong (cx.callOutputs here insn call)) =
      [[insn, toString here.index]] := by
  have receiver : invocationsAmong (factsAmong
      (call.arguments.receiver.toList.flatMap (cx.receiverRows insn))) = [] := by
    apply readAmong_eq_nil
    intro fact member
    rw [relation_receiverRows member]
    decide
  have lines : invocationsAmong (factsAmong (cx.lineRows here insn)) = [] :=
    readAmong_eq_nil (allFacts_map fun _ => by simp +decide)
  have known : call.kind.relation ∈ invocationRelations := by
    cases call.kind <;> decide
  simp [invocationsAmong, callOutputs, receiver, invocationsAmong_paramRows, lines, known]

theorem invocationsAmong_polymorphicCallOutputs (insn : String) (call : Call) :
    invocationsAmong (factsAmong (cx.polymorphicCallOutputs here insn call)) =
      [[insn, toString here.index]] := by
  simp +decide [invocationsAmong, polymorphicCallOutputs, invocationsAmong_callOutputs]

theorem invocationsAmong_customCallOutputs (insn : String) (call : CustomCall) :
    invocationsAmong (factsAmong (cx.customCallOutputs here insn call)) =
      [[insn, toString here.index]] := by
  have types : ∀ texts, invocationsAmong
      (factsAmong (positioned .dynamicMethodInvocationParamType insn texts)) = [] := by
    intro texts
    exact readAmong_eq_nil (allFacts_map fun _ => by simp +decide)
  have strings : ∀ text, invocationsAmong (factsAmong (stringRows text)) = [] := fun text => rfl
  simp +decide [invocationsAmong, customCallOutputs, invocationsAmong_paramRows, types, strings]

/-- An invocation has one row under its name, and its result waits under that name. -/
theorem Tells.invocation (told : cx.Tells here state outputs next)
    (invokes : here.instr.isInvocation) :
    ∃ kind, here.instr.NamedAs kind ∧
      invocationsAmong (factsAmong outputs) = [[cx.nextInsn state kind, toString here.index]] ∧
      next.carry.result = some ⟨here.index, .invocation (cx.nextInsn state kind)⟩ := by
  cases told with
  | invoke call instr_eq =>
    refine ⟨_, ?_, invocationsAmong_callOutputs _ call, rfl⟩
    rw [instr_eq]
    exact ⟨call.callee, rfl⟩
  | invokePolymorphic call instr_eq =>
    refine ⟨_, ?_, invocationsAmong_polymorphicCallOutputs _ call, rfl⟩
    rw [instr_eq]
    exact ⟨call.callee, rfl⟩
  | invokeCustom call instr_eq =>
    refine ⟨_, ?_, invocationsAmong_customCallOutputs _ call, rfl⟩
    rw [instr_eq]
    exact ⟨call, rfl⟩
  | _ => simp [*, Instr.isInvocation] at invokes

/-- An instruction that makes a result otherwise fills an array, which waits. -/
theorem Tells.filledArray (told : cx.Tells here state outputs next)
    (produces : here.instr.producesResult) (uninvoked : ¬ here.instr.isInvocation) :
    ∃ name registers, here.instr.filling? = some registers ∧
      next.carry.result = some ⟨here.index, .filledArray name registers⟩ := by
  cases told with
  | filledNewArray found own_eq =>
    rw [own_eq]
    exact ⟨_, _, rfl, rfl⟩
  | invoke _ instr_eq | invokePolymorphic _ instr_eq | invokeCustom _ instr_eq =>
    rw [instr_eq] at uninvoked
    exact absurd rfl uninvoked
  | _ => simp [*, Instr.producesResult] at produces

/-- Behind an instruction, a result that was made just before is its own. -/
theorem Awaits.step {previous : Option NamedInstr} (awaits : Awaits state here.index previous)
    (told : cx.Tells here state outputs next) {insn : String} (heap : String)
    (invoked : here.instr.isInvocation →
      next.carry.result = some ⟨here.index, .invocation insn⟩) :
    Awaits next (here.index + 1) (some ⟨here, insn, heap⟩) := by
  intro pending result_eq
  rcases told.result pending result_eq with early | ⟨index_eq, produces, -⟩
  · have before := (awaits pending early).1
    exact ⟨Nat.lt_succ_of_lt before, fun just => by omega⟩
  · refine ⟨by omega, fun _ => ⟨⟨here, insn, heap⟩, rfl, ?_⟩⟩
    by_cases invokes : here.instr.isInvocation
    · cases (invoked invokes).symm.trans result_eq
      exact ⟨invokes, rfl⟩
    · obtain ⟨name, registers, filling_eq, made⟩ := told.filledArray produces invokes
      cases made.symm.trans result_eq
      exact filling_eq

theorem rowsIn_allocated (relation : Relation) (heap type var : String) (isEmpty : Bool) :
    rowsIn relation (factsAmong (cx.allocated here heap type var isEmpty)) =
      (if .normalHeap = relation then [[heap, type]] else []) ++
        ((if .assignHeapAllocation = relation then
            [[cx.assignInsn here.index, toString here.index, heap, var, cx.id,
              Identifier.lineText (cx.line? here)]]
          else []) ++
        if isEmpty ∧ .emptyArray = relation then [[heap]] else []) := by
  cases isEmpty <;> simp [allocated, object]

theorem invocationsAmong_allocated (heap type var : String) (isEmpty : Bool) :
    invocationsAmong (factsAmong (cx.allocated here heap type var isEmpty)) = [] := by
  cases isEmpty <;> simp +decide [invocationsAmong, allocated, object]

theorem factsAmong_filledElements (array heap : String) (elements : List Reg) :
    factsAmong (cx.filledElements here array heap elements) =
      elements.zipIdx.map fun (element, position) =>
        ⟨.arrayInitialValueFromLocal,
          [cx.assignInsn here.index, toString here.index, array, toString position,
            cx.variableOf element, heap, cx.id]⟩ := by
  rw [filledElements, factsAmong_flatMap, List.map_eq_flatMap]
  rfl

/-- A result that is moved out has the rows of what has made it. -/
theorem Awaits.resultRows {previous : Option NamedInstr} {own : NamedInstr} {kind : MoveKind}
    {dst : Reg} {pending : PendingResult} (awaits : Awaits state own.here.index previous)
    (instr_eq : own.instr = .moveResult kind dst) (result_eq : state.carry.result = some pending)
    (behind : pending.index + 1 = own.here.index)
    (heap_eq : ∀ type elements, pending.producer = .filledArray type elements →
      own.heap = cx.nextHeap state type) :
    cx.ResultRows [(previous, own)]
      (factsAmong (cx.resultOutputs own.here state dst pending.producer)) := by
  obtain ⟨maker, rfl, made⟩ := (awaits pending result_eq).2 behind
  have invocation_eq : own.invocation? = none := by
    rw [NamedInstr.invocation?, instr_eq]
    rfl
  cases producer_eq : pending.producer with
  | invocation insn =>
    rw [producer_eq] at made
    obtain ⟨invokes, rfl⟩ := made
    have filling_eq : maker.instr.filling? = none := Instr.filling?_of_isInvocation invokes
    constructor
    · simp +decide [invocationsAmong, resultOutputs, invocation_eq]
    · simp [resultOutputs, NamedInstr.returned?, instr_eq, Instr.resultTo?, invokes]
    · simp [resultOutputs, NamedInstr.elements, filling_eq]
    · simp [resultOutputs, NamedInstr.allocated?, instr_eq, Instr.allocates?, filling_eq]
  | filledArray type elements =>
    rw [producer_eq] at made
    have filling_eq : maker.instr.filling? = some elements := made
    have uninvoked := Instr.isInvocation_of_filling? filling_eq
    have outputs_eq :
        factsAmong (cx.resultOutputs own.here state dst (.filledArray type elements)) =
        factsAmong (cx.allocated own.here own.heap type (cx.variableOf dst) elements.isEmpty) ++
          elements.zipIdx.map fun (element, position) =>
            ⟨.arrayInitialValueFromLocal,
              [cx.assignInsn own.here.index, toString own.here.index, cx.variableOf dst,
                toString position, cx.variableOf element, own.heap, cx.id]⟩ := by
      rw [resultOutputs, factsAmong_append, factsAmong_cons_mention, factsAmong_filledElements,
        heap_eq type elements producer_eq]
    rw [outputs_eq]
    constructor
    · simp only [invocationsAmong, readAmong_append, invocationsAmong_allocated, readAmong_map]
      simp +decide [invocation_eq]
    · rw [rowsIn_append, rowsIn_allocated, rowsIn_map]
      simp [NamedInstr.returned?, instr_eq, Instr.resultTo?, uninvoked]
    · rw [rowsIn_append, rowsIn_allocated, rowsIn_map]
      simp [NamedInstr.elements, instr_eq, Instr.resultTo?, filling_eq]
    · rw [rowsIn_append, rowsIn_allocated, rowsIn_map]
      simp [NamedInstr.allocated?, instr_eq, Instr.allocates?, filling_eq]

/-- An instruction that moves no result out has no rows of a result. -/
theorem resultRows_of_still {previous : Option NamedInstr} {own : NamedInstr}
    (still : own.instr.resultTo? = none)
    (within : ∀ fact ∈ factsAmong outputs, fact.relation ∈ own.instr.relations)
    (invocations : invocationsAmong (factsAmong outputs) = own.invocation?.toList)
    (allocations : rowsIn .assignHeapAllocation (factsAmong outputs) =
      (own.allocated? cx previous).toList) :
    cx.ResultRows [(previous, own)] (factsAmong outputs) := by
  have absent : ∀ relation ∈ [Relation.assignReturnValue, .arrayInitialValueFromLocal],
      rowsIn relation (factsAmong outputs) = [] := by
    intro relation result_relation
    apply rowsIn_eq_nil
    rintro fact member rfl
    exact Instr.notMem_relations_of_still still result_relation (within fact member)
  constructor
  · rw [invocations]
    cases invocation_eq : own.invocation? <;> simp [invocation_eq]
  · rw [absent _ (by simp)]
    cases previous <;> simp [NamedInstr.returned?, still]
  · rw [absent _ (by simp)]
    simp [NamedInstr.elements, still]
  · rw [allocations]
    cases allocated_eq : own.allocated? cx previous <;> simp [allocated_eq]

/-- An instruction that moves no result out has one row of allocation if it allocates an object. -/
theorem Tells.allocation (told : cx.Tells here state outputs next)
    (within : ∀ fact ∈ factsAmong outputs, fact.relation ∈ here.instr.relations)
    (still : here.instr.resultTo? = none) (previous : Option Instr) :
    ∃ heap, rowsIn .assignHeapAllocation (factsAmong outputs) =
      ((here.instr.allocates? previous).map fun dst =>
        [cx.assignInsn here.index, toString here.index, heap, cx.variableOf dst, cx.id,
          Identifier.lineText (cx.line? here)]).toList := by
  have strings : ∀ text, rowsIn .assignHeapAllocation (factsAmong (stringRows text)) = [] := by
    intro text
    simp [stringRows]
  cases told with
  | constString text instr_eq =>
    rw [instr_eq]
    exact ⟨StringConstant.identifier (StringConstant.encode text), by
      simp [stringOutputs, strings, constantOutputs, object, Instr.allocates?]⟩
  | constClass cls instr_eq =>
    rw [instr_eq]
    exact ⟨Identifier.classConstant cls, by
      simp [classOutputs, constantOutputs, object, Instr.allocates?]⟩
  | methodHandle sig instr_eq =>
    rw [instr_eq]
    exact ⟨Identifier.methodHandleConstant sig.id, by
      simp [methodHandleOutputs, constantOutputs, object, Instr.allocates?]⟩
  | fieldHandle sig instr_eq =>
    rw [instr_eq]
    exact ⟨Identifier.methodHandleConstant sig.id, by
      simp [fieldHandleOutputs, constantOutputs, object, Instr.allocates?]⟩
  | constMethodType proto instr_eq =>
    have params : ∀ key texts, rowsIn .assignHeapAllocation
        (factsAmong (positioned .methodTypeConstantParam key texts)) = [] := by
      intro key texts
      rw [positioned, factsAmong_map_row, rowsIn_map, if_neg (by simp)]
    rw [instr_eq]
    exact ⟨Identifier.methodTypeConstant (proto.params.map Descriptor.sourceName)
      proto.returnType.sourceName, by
        simp [methodTypeOutputs, methodTypeRows, params, constantOutputs, object, Instr.allocates?]⟩
  | newInstance name instr_eq =>
    rw [instr_eq]
    exact ⟨cx.nextHeap state name, by
      simp [newInstanceOutputs, rowsIn_allocated, Instr.allocates?]⟩
  | newArray found instr_eq =>
    have typed : rowsIn .assignHeapAllocation (factsAmong (arrayTypeRows found)) = [] := by
      rw [arrayTypeRows, factsAmong_cons_row, factsAmong_map_row, rowsIn_cons, rowsIn_map]
      simp
    rw [instr_eq]
    exact ⟨cx.nextHeap state found.sourceName, by
      simp [newArrayOutputs, typed, rowsIn_allocated, Instr.allocates?]⟩
  | moveResult pending instr_eq =>
    rw [instr_eq] at still
    cases still
  | _ =>
    refine ⟨"", ?_⟩
    rw [rowsIn_eq_nil]
    · simp [*, Instr.allocates?]
    · rintro fact member same
      have known := within fact member
      simp [*, Instr.relations, callRelations] at known

/-- The object that is allocated where what a producer has left is moved out, if it is an array. -/
def movedHeap (cx : MethodContext) (state : MethodState) : Producer → String
  | .invocation _ => ""
  | .filledArray type _ => cx.nextHeap state type

/-- What one instruction contributes to the rows of results. -/
theorem Tells.resultRows (told : cx.Tells here state outputs next)
    (within : ∀ fact ∈ factsAmong outputs, fact.relation ∈ here.instr.relations)
    {previous : Option NamedInstr} (awaits : Awaits state here.index previous) :
    ∃ insn heap, Awaits next (here.index + 1) (some ⟨here, insn, heap⟩) ∧
      (here.instr.isInvocation → ∃ kind number, here.instr.NamedAs kind ∧
        insn = cx.insn kind number) ∧
      cx.ResultRows [(previous, ⟨here, insn, heap⟩)] (factsAmong outputs) := by
  by_cases invokes : here.instr.isInvocation
  · have still : here.instr.resultTo? = none := Instr.resultTo?_of_isInvocation invokes
    obtain ⟨kind, named, rows_eq, result_eq⟩ := told.invocation invokes
    obtain ⟨heap, allocation_eq⟩ := told.allocation within still (previous.map NamedInstr.instr)
    refine ⟨cx.nextInsn state kind, heap, awaits.step told heap fun _ => result_eq,
      fun _ => ⟨kind, _, named, rfl⟩, resultRows_of_still still within ?_ allocation_eq⟩
    rw [rows_eq, NamedInstr.invocation?, if_pos (by exact invokes)]
    rfl
  · have quiet : invocationsAmong (factsAmong outputs) = [] := by
      apply readAmong_eq_nil
      intro fact member
      exact Instr.notMem_relations_of_not_isInvocation invokes (within fact member)
    have stepped : ∀ heap, Awaits next (here.index + 1) (some ⟨here, "", heap⟩) :=
      fun heap => awaits.step told heap fun invoked => absurd invoked invokes
    cases still : here.instr.resultTo? with
    | none =>
      obtain ⟨heap, allocation_eq⟩ := told.allocation within still (previous.map NamedInstr.instr)
      refine ⟨"", heap, stepped heap, fun invoked => absurd invoked invokes,
        resultRows_of_still still within ?_ allocation_eq⟩
      rw [quiet, NamedInstr.invocation?, if_neg (by exact invokes)]
      rfl
    | some dst =>
      cases told with
      | moveResult pending instr_eq result_eq behind =>
        refine ⟨"", cx.movedHeap state pending.producer, stepped _,
          fun invoked => absurd invoked invokes,
          Awaits.resultRows awaits instr_eq result_eq behind ?_⟩
        intro type elements producer_eq
        exact congrArg (cx.movedHeap state) producer_eq
      | _ => simp [*, Instr.resultTo?] at still

/-! ## Runs -/

/-- Successive instructions have the rows of results that they make and move out. -/
theorem Recites.resultRows {index : Nat} {address : Address} {previous : Option NamedInstr}
    {instrs : List Instr}
    (run : cx.Recites (locateFrom index address instrs) state outputs final)
    (awaits : Awaits state index previous) :
    ∃ named : List NamedInstr, named.map NamedInstr.here = locateFrom index address instrs ∧
      (∀ own ∈ named, own.instr.isInvocation → ∃ kind number, own.instr.NamedAs kind ∧
        own.insn = cx.insn kind number) ∧
      cx.ResultRows (withPrevious previous named) (factsAmong outputs) := by
  induction instrs generalizing index address previous state outputs with
  | nil =>
    cases run
    exact ⟨[], rfl, by simp, ⟨rfl, rfl, rfl, rfl⟩⟩
  | cons instr rest induction =>
    cases run with
    | @cons here _ _ next _ first others declared told within later =>
      have awaits_here : Awaits (state.reach address index) index previous := awaits
      obtain ⟨insn, heap, awaits_next, own_named, own_rows⟩ := told.resultRows within awaits_here
      have awaits_later : Awaits (next.withDeclared declared) (index + 1)
          (some ⟨⟨index, address, instr⟩, insn, heap⟩) := awaits_next
      obtain ⟨named, here_eq, all_named, rows⟩ := induction later awaits_later
      refine ⟨⟨⟨index, address, instr⟩, insn, heap⟩ :: named, ?_,
        List.forall_mem_cons.2 ⟨own_named, all_named⟩, ?_⟩
      · rw [List.map_cons, here_eq, locateFrom]
      · rw [factsAmong_append]
        exact own_rows.append rows

theorem awaits_entryState : Awaits cx.entryState 1 none := by
  intro pending result_eq
  have result_none : cx.entryState.carry.result = none := cx.entryState_same .result (by simp)
  cases result_none.symm.trans result_eq

/-- The rows of the results of a method. -/
theorem Recital.resultRows {events : List Event} {extracted : ExtractedMethod}
    (recital : cx.Recital events extracted) :
    ∃ named : List NamedInstr, named.map NamedInstr.here = cx.definition.located ∧
      (∀ own ∈ named, own.instr.isInvocation → ∃ kind number, own.instr.NamedAs kind ∧
        own.insn = cx.insn kind number) ∧
      cx.ResultRows (withPrevious none named) (factsOf events) := by
  obtain ⟨start, located_eq⟩ := cx.definition.exists_located_eq
  obtain ⟨named, here_eq, all_named, rows⟩ :=
    (located_eq ▸ recital.recites).resultRows awaits_entryState
  refine ⟨named, here_eq.trans located_eq.symm, all_named, ?_⟩
  have chosen_eq : ∀ relation ∈ [Relation.assignReturnValue, .arrayInitialValueFromLocal,
      .assignHeapAllocation],
      rowsIn relation (factsOf events) = rowsIn relation (factsAmong recital.body) := by
    intro relation member
    rw [rowsIn, recital.filter_factsOf_body (· == relation)]
    · rfl
    · simp only [List.mem_cons, List.not_mem_nil, or_false] at member
      rcases member with rfl | rfl | rfl <;> decide
  constructor
  · rw [invocationsAmong, readAmong,
      recital.filter_factsOf_body (· ∈ invocationRelations) (by decide)]
    exact rows.invocations
  · rw [chosen_eq _ (by simp)]
    exact rows.returns
  · rw [chosen_eq _ (by simp)]
    exact rows.elements
  · rw [chosen_eq _ (by simp)]
    exact rows.allocations

end MethodContext

/-- What becomes of results.  The first instruction that would move a result out but does not stand
next to one that makes it ends the extraction: the result is missing when nothing before makes any,
or when the instruction next to the last one that does has moved it out, and it is stale otherwise.
When nothing fails, each result of an invocation that is moved out has one row, with the name that
the row of the invocation itself bears, and each array filled with registers that is moved out has
one row for each register in order, with the object that is allocated where it is moved. -/
theorem move_results {container : Container} {definition : MethodDef} {code : CodeItem}
    {cx : MethodContext} {cache : SignatureCache} (code_eq : definition.code = some code)
    (create_eq : ((MethodContext.create container definition).run cache).value = .ok cx) :
    let entered := ((MethodContext.create container definition).run cache).state
    let outcome := (definition.extract container).run cache
    (∀ front kind dst back reached,
      code.instructions = front ++ .moveResult kind dst :: back →
      front.getLast?.any Instr.producesResult = false →
      ((cx.extractInstrs (locateFrom 1 code.startAddress front) cx.entryState).run entered).value =
        .ok reached →
      ((∀ instr ∈ front, instr.producesResult = false) →
        outcome.value = .error (.missingResult cx.id (front.length + 1))) ∧
      ∀ early producer late, front = early ++ producer :: late → producer.producesResult →
        (∀ instr ∈ late, instr.producesResult = false) →
        outcome.value =
          .error (if late.head?.any Instr.isMoveResult then .missingResult cx.id (front.length + 1)
            else .staleResult cx.id (front.length + 1) (early.length + 1))) ∧
    ∀ extracted, outcome.value = .ok extracted →
      ∃ named : List NamedInstr, named.map NamedInstr.here = code.located ∧
        (∀ own ∈ named, own.instr.isInvocation → ∃ kind number, own.instr.NamedAs kind ∧
          own.insn = Identifier.instruction extracted.id kind number) ∧
        cx.ResultRows (withPrevious none named) (factsOf outcome.events) := by
  obtain ⟨-, definition_eq, -, -⟩ := cx.create_outcome create_eq
  subst definition_eq
  have value_eq : ((cx.definition.extract container).run cache).value = _ :=
    congrArg Emitted.value (Extract.perform_bind_of_ok cache create_eq)
  refine ⟨?_, ?_⟩
  · intro front kind dst back reached instrs_eq unproduced reached_eq
    rw [value_eq]
    constructor
    · exact MethodContext.extract_of_barren code_eq instrs_eq reached_eq
    · intro early producer late front_eq produces barren
      exact MethodContext.extract_of_stale code_eq instrs_eq reached_eq front_eq produces barren
        unproduced
  · intro extracted extracted_eq
    obtain ⟨recital⟩ := MethodDef.recital_of_create create_eq extracted_eq
    obtain ⟨named, here_eq, all_named, rows⟩ := recital.resultRows
    refine ⟨named, ?_, ?_, rows⟩
    · rw [here_eq, MethodDef.located, code_eq]
      rfl
    · rw [recital.id_eq]
      exact all_named

/-- A static method of the container of paired registers, with a body. -/
def relay (instructions : List Instr) : MethodDef :=
  { loneMethod [] with
    code := some { registers := 4, instructions, tries := [], debugItems := [] } }

/-- What is known about such a method from the start. -/
def relayContext (instructions : List Instr) : MethodContext where
  container := pairedContainer
  definition := relay instructions
  sig := .ofRef ⟨.object "Lone", "put", [.primitive .long, .primitive .int], .void⟩
  localCount := 1

theorem create_relay (instructions : List Instr) :
    ((MethodContext.create pairedContainer (relay instructions)).run .empty).value =
      .ok (relayContext instructions) := by
  cbv

theorem exists_ok_of_isSome {ε α : Type} {outcome : Except ε α}
    (found : outcome.toOption.isSome = true) : ∃ value, outcome = .ok value := by
  cases outcome with
  | error => cases found
  | ok value => exact ⟨value, rfl⟩

/-- Results are moved out next to a call and next to an array, but not one instruction further. -/
theorem move_results_relay :
    let call : Instr := .invoke .static (.list [⟨1⟩, ⟨2⟩, ⟨3⟩]) 0
    let array : Instr := .filledNewArray (.list [⟨1⟩, ⟨2⟩]) 0
    let taken : List Instr := [call, .moveResult .narrow ⟨0⟩, array, .moveResult .object ⟨0⟩]
    let missed : List Instr := [call, .nop, .moveResult .narrow ⟨0⟩]
    (((relay missed).extract pairedContainer).run .empty).value =
      .error (.staleResult (relayContext missed).id 3 1) ∧
    ∃ named : List NamedInstr, named.map NamedInstr.instr = taken ∧
      (relayContext taken).ResultRows (withPrevious none named)
        (factsOf (((relay taken).extract pairedContainer).run .empty).events) := by
  intro call array taken missed
  obtain ⟨fails, -⟩ := move_results rfl (create_relay missed)
  obtain ⟨-, succeeds⟩ := move_results rfl (create_relay taken)
  constructor
  · have exists_reached : ∃ reached, (((relayContext missed).extractInstrs
        (locateFrom 1 0 [call, .nop]) (relayContext missed).entryState).run
          ((MethodContext.create pairedContainer (relay missed)).run .empty).state).value =
            .ok reached := exists_ok_of_isSome (by cbv)
    obtain ⟨reached, reached_eq⟩ := exists_reached
    have stale := (fails [call, .nop] .narrow ⟨0⟩ [] reached rfl rfl reached_eq).2 [] call [.nop]
      rfl rfl (by simp [Instr.producesResult])
    exact stale
  · have exists_extracted : ∃ extracted,
        (((relay taken).extract pairedContainer).run .empty).value = .ok extracted :=
      MethodDef.exists_extract_sound rfl rfl (by decide)
    obtain ⟨extracted, extracted_eq⟩ := exists_extracted
    obtain ⟨named, here_eq, -, rows⟩ := succeeds extracted extracted_eq
    have instrs_eq := congrArg (List.map LocatedInstr.instr) here_eq
    rw [List.map_map] at instrs_eq
    exact ⟨named, instrs_eq, rows⟩

end DalvikFacts
