import DalvikFacts.Proofs.Method.Recital
import Mathlib.Data.List.Count
import Std.Data.String.ToNat

/-!
# Rows of statements

A statement is written once: an instruction has one row in the relations of statements, or leaves
one field access, unless it is one that no row speaks of.  The row bears the index of the
instruction.
-/

namespace DalvikFacts

/-- The relations of statements, whose second column is the index of an instruction. -/
def statementRelations : List Relation :=
  [.assignLocal, .assignNumConstant, .assignHeapAllocation, .assignCast, .assignInstanceOf,
    .assignUnop, .assignBinop, .returnValue, .returnVoid, .enterMonitor, .exitMonitor, .throw,
    .loadArrayIndex, .storeArrayIndex, .tableSwitch, .lookupSwitch, .staticMethodInvocation,
    .specialMethodInvocation, .virtualMethodInvocation, .superMethodInvocation,
    .dynamicMethodInvocation]

/-- The column of a row of a statement that holds the index of the instruction. -/
def Fact.indexColumn (fact : Fact) : Option String :=
  fact.columns[1]?

/-- The rows of statements among facts. -/
def statementsOf (facts : List Fact) : List Fact :=
  facts.filter (·.relation ∈ statementRelations)

namespace Instr

/-- Whether an instruction is an invocation. -/
def isInvocation : Instr → Bool
  | invoke .. | invokePolymorphic .. | invokeCustom .. => true
  | _ => false

/-- Whether an instruction has no statement of its own.  The result of an invocation is moved
without one, and an array filled with registers has its statement where it is moved. -/
def isSilent (afterInvocation : Bool) : Instr → Bool
  | nop | optimized .. | packedSwitchPayload .. | sparseSwitchPayload .. | arrayPayload ..
  | goto .. | branch .. | branchZero .. | moveException _ | fillArrayData ..
  | filledNewArray .. => true
  | moveResult .. => afterInvocation
  | _ => false

/-- The indices of the instructions with a statement, counted from an index, behind another
instruction. -/
def spoken (index : Nat) (previous : Option Instr) : List Instr → List Nat
  | [] => []
  | instr :: rest =>
    (if instr.isSilent (previous.any isInvocation) then [] else [index]) ++
      spoken (index + 1) (some instr) rest

variable {index : Nat} {previous : Option Instr}

theorem spoken_append (front back : List Instr) :
    spoken index previous (front ++ back) = spoken index previous front ++
      spoken (index + front.length) (front.getLast?.or previous) back := by
  induction front generalizing index previous with
  | nil => rfl
  | cons instr rest induction =>
    rw [List.cons_append, spoken, induction, spoken, List.append_assoc, List.length_cons,
      List.getLast?_cons, Option.or_some, Option.some_or, Nat.add_assoc, Nat.add_comm 1]

theorem mem_spoken {instrs : List Instr} {number : Nat}
    (member : number ∈ spoken index previous instrs) :
    index ≤ number ∧ number < index + instrs.length := by
  induction instrs generalizing index previous with
  | nil => cases member
  | cons instr rest induction =>
    rw [List.length_cons]
    rcases List.mem_append.1 member with here | later
    · split at here
      · cases here
      · rw [List.mem_singleton] at here
        omega
    · have bounds := induction later
      omega

theorem count_spoken (front back : List Instr) (instr : Instr) :
    (spoken index previous (front ++ instr :: back)).count (index + front.length) =
      if instr.isSilent ((front.getLast?.or previous).any isInvocation) then 0 else 1 := by
  have before : (spoken index previous front).count (index + front.length) = 0 := by
    rw [List.count_eq_zero]
    exact fun member => Nat.lt_irrefl _ (mem_spoken member).2
  have behind : (spoken (index + front.length + 1) (some instr) back).count
      (index + front.length) = 0 := by
    rw [List.count_eq_zero]
    exact fun member => Nat.not_succ_le_self _ (mem_spoken member).1
  rw [spoken_append, spoken, List.count_append, List.count_append, before, behind]
  split <;> simp

end Instr

/-- Whether a result was made by an invocation. -/
def Producer.isInvocation : Producer → Bool
  | invocation _ => true
  | filledArray .. => false

/-- The index columns of the rows of statements among outputs. -/
abbrev statementIndices (outputs : List Output) : List (Option String) :=
  readAmong statementRelations Fact.indexColumn (factsAmong outputs)

/-- Outputs without a row of a statement. -/
abbrev Wordless (outputs : List Output) : Prop :=
  AllFacts (·.relation ∉ statementRelations) outputs

/-- The index columns of the statements that field accesses will have. -/
def accessIndices (accesses : List FieldAccess) : List (Option String) :=
  accesses.map fun access => some (toString access.index)

namespace MethodContext

variable {cx : MethodContext} {here : LocatedInstr} {state next final : MethodState}
  {outputs : List Output}

/-! ## Instructions -/

theorem wordless_typing : Wordless [cx.typing here] := by
  unfold typing
  split <;> simp [statementRelations]

theorem wordless_positioned {relation : Relation} (other : relation ∉ statementRelations)
    (key : String) (texts : List String) : Wordless (positioned relation key texts) :=
  allFacts_map fun _ => by simp [other]

theorem wordless_stringRows (text : String) : Wordless (stringRows text) := by
  simp [stringRows, statementRelations]

theorem wordless_arrayTypeRows (type : Descriptor) : Wordless (arrayTypeRows type) := by
  have components : Wordless (type.component?.toList.map fun component =>
      .row .componentType [type.sourceName, component.sourceName]) :=
    allFacts_map fun _ => by simp [statementRelations]
  exact allFacts_row.2 ⟨by simp [statementRelations], components⟩

theorem wordless_payloadOutputs (width : Nat) (values : List Int) (fills : List ArrayFill) :
    Wordless (cx.payloadOutputs here width values fills) := by
  have element : ∀ type fill, Wordless (cx.filled type values fill) := by
    intro type fill
    exact allFacts_mention.2 (allFacts_flatMap fun _ _ => by simp [statementRelations])
  unfold payloadOutputs
  split
  · simp
  · split
    · simp
    · exact allFacts_flatMap fun fill _ => element _ fill

theorem wordless_fillNotices (offset : Int) (newArray : Option NewArray) :
    Wordless (cx.fillNotices here offset newArray) := by
  unfold fillNotices
  split
  · simp
  · split <;> split <;> simp

theorem wordless_testOutputs (insn : String) (test : TestOp) (left : Reg) (right : Option Reg) :
    Wordless (cx.testOutputs insn test left right) := by
  have operand : ∀ position reg, Wordless (cx.testOperand insn position reg) := by
    intro position reg
    simp [testOperand, statementRelations]
  refine allFacts_append.2 ⟨allFacts_append.2 ⟨operand _ left, ?_⟩, by simp [statementRelations]⟩
  exact allFacts_flatMap fun reg _ => operand _ reg

theorem wordless_paramRows (insn : String) (first : Nat) (params : List Reg) :
    Wordless (cx.paramRows insn first params) :=
  allFacts_flatMap fun _ _ => by simp [statementRelations]

theorem wordless_filledElements (array heap : String) (elements : List Reg) :
    Wordless (cx.filledElements here array heap elements) :=
  allFacts_flatMap fun _ _ => by simp [statementRelations]

theorem statementIndices_allocated (heap type var : String) (isEmpty : Bool) :
    statementIndices (cx.allocated here heap type var isEmpty) = [some (toString here.index)] := by
  cases isEmpty <;>
    simp [statementIndices, allocated, object, Fact.indexColumn, statementRelations]

theorem statementIndices_constantOutputs (dst : Reg) (heap : String) :
    statementIndices (cx.constantOutputs here dst heap) = [some (toString here.index)] := by
  simp [statementIndices, constantOutputs, object, Fact.indexColumn, statementRelations]

theorem statementIndices_switchOutputs (kind : SwitchKind) (key : Reg) (offset : Int) :
    statementIndices (cx.switchOutputs here kind key offset) = [some (toString here.index)] := by
  have noticed : factsAmong (cx.switchNotices here offset) = [] := by
    unfold switchNotices
    split <;> rfl
  cases kind <;>
    simp [statementIndices, switchOutputs, noticed, switchRelation, Fact.indexColumn,
      statementRelations]

theorem statementIndices_callOutputs (insn : String) (call : Call) :
    statementIndices (cx.callOutputs here insn call) = [some (toString here.index)] := by
  have received : Wordless (call.arguments.receiver.toList.flatMap (cx.receiverRows insn)) :=
    allFacts_flatMap fun _ _ => by simp [receiverRows, statementRelations]
  have lines : Wordless (cx.lineRows here insn) :=
    allFacts_map fun _ => by simp [statementRelations]
  have known : call.kind.relation ∈ statementRelations := by
    cases call.kind <;> simp [CallKind.relation, statementRelations]
  simp [statementIndices, callOutputs, readAmong_eq_nil received,
    readAmong_eq_nil (wordless_paramRows _ _ _), readAmong_eq_nil lines, known, Fact.indexColumn]

theorem statementIndices_customCallOutputs (insn : String) (call : CustomCall) :
    statementIndices (cx.customCallOutputs here insn call) = [some (toString here.index)] := by
  have types : ∀ texts, Wordless (positioned .dynamicMethodInvocationParamType insn texts) :=
    wordless_positioned (by decide) insn
  have known : Relation.dynamicMethodInvocation ∈ statementRelations := by decide
  simp [statementIndices, customCallOutputs, readAmong_eq_nil (wordless_paramRows _ _ _),
    readAmong_eq_nil (types _), readAmong_eq_nil (wordless_stringRows _), known, Fact.indexColumn]

theorem statementIndices_resultOutputs (dst : Reg) (producer : Producer) :
    statementIndices (cx.resultOutputs here state dst producer) =
      if producer.isInvocation then [] else [some (toString here.index)] := by
  cases producer with
  | invocation insn =>
    simp [statementIndices, resultOutputs, Producer.isInvocation, statementRelations]
  | filledArray type elements =>
    simp [statementIndices, resultOutputs, Producer.isInvocation, statementIndices_allocated,
      readAmong_eq_nil (wordless_filledElements _ _ _)]

/-- An instruction has one row of a statement or leaves one field access, or it is silent. -/
theorem Tells.statements (told : cx.Tells here state outputs next) :
    ∃ pushed : List FieldAccess, next.accesses.toList = state.accesses.toList ++ pushed ∧
      statementIndices outputs ++ accessIndices pushed =
        if here.instr.isSilent (state.carry.result.any (·.producer.isInvocation)) then []
        else [some (toString here.index)] := by
  have unqueued : next.accesses = state.accesses → statementIndices outputs =
      (if here.instr.isSilent (state.carry.result.any (·.producer.isInvocation)) then []
        else [some (toString here.index)]) →
      ∃ pushed : List FieldAccess, next.accesses.toList = state.accesses.toList ++ pushed ∧
        statementIndices outputs ++ accessIndices pushed =
          if here.instr.isSilent (state.carry.result.any (·.producer.isInvocation)) then []
          else [some (toString here.index)] := by
    intro same indices_eq
    exact ⟨[], by rw [same, List.append_nil], (List.append_nil _).trans indices_eq⟩
  have unspoken : ∀ rows, Wordless rows → here.instr.isSilent
      (state.carry.result.any (·.producer.isInvocation)) = true → statementIndices rows =
        if here.instr.isSilent (state.carry.result.any (·.producer.isInvocation)) then []
        else [some (toString here.index)] := by
    intro rows wordless silent
    rw [if_pos silent]
    exact readAmong_eq_nil wordless
  cases told with
  | instanceField field instr_eq | staticField field instr_eq =>
    refine ⟨_, Array.toList_push, ?_⟩
    simp [statementIndices, fieldOutputs, accessIndices, instr_eq, Instr.isSilent, fieldAccess]
  | nop instr_eq | moveException instr_eq | goto instr_eq | optimized instr_eq =>
    exact unqueued rfl (unspoken _ (by simp) (by rw [instr_eq]; rfl))
  | filledNewArray found instr_eq =>
    exact unqueued rfl (unspoken _ (wordless_arrayTypeRows _) (by rw [instr_eq]; rfl))
  | branch instr_eq | branchZero instr_eq =>
    exact unqueued rfl (unspoken _ (wordless_testOutputs _ _ _ _) (by rw [instr_eq]; rfl))
  | arrayPayload instr_eq =>
    exact unqueued rfl (unspoken _ (wordless_payloadOutputs _ _ _) (by rw [instr_eq]; rfl))
  | packedSwitchPayload instr_eq | sparseSwitchPayload instr_eq =>
    refine unqueued rfl (unspoken _ ?_ (by rw [instr_eq]; rfl))
    unfold casesNotices
    split <;> simp
  | fillArrayData instr_eq =>
    refine unqueued (accesses_awaitingFill here _ _) ?_
    exact unspoken _ (wordless_fillNotices _ _) (by rw [instr_eq]; rfl)
  | moveResult pending instr_eq result_eq =>
    refine unqueued (accesses_resultTaken pending.producer) ?_
    simp only [instr_eq, result_eq, Instr.isSilent, Option.any_some, statementIndices_resultOutputs]
  | switch instr_eq =>
    refine unqueued (accesses_awaitingCases here _) ?_
    simp [instr_eq, Instr.isSilent, statementIndices_switchOutputs]
  | move instr_eq | const instr_eq | constWide instr_eq | arrayLength instr_eq | unop instr_eq
  | compare instr_eq | binop instr_eq | binopInPlace instr_eq | binopLiteral instr_eq
  | binopSmallLiteral instr_eq =>
    refine unqueued rfl ?_
    simp +decide [statementIndices, instr_eq, Instr.isSilent, moveOutputs, numberOutputs,
      unopOutputs, binopOutputs, binopLiteralOutputs, operand, readAmong_eq_nil wordless_typing,
      Fact.indexColumn]
  | returnVoid instr_eq | returnValue instr_eq | checkCast _ instr_eq | instanceOf _ instr_eq
  | throw instr_eq =>
    refine unqueued rfl ?_
    simp [statementIndices, instr_eq, Instr.isSilent, returnVoidOutputs, returnOutputs, castOutputs,
      instanceOfOutputs, throwOutputs, statementRelations, Fact.indexColumn]
  | constString _ instr_eq | constClass _ instr_eq | methodHandle _ instr_eq
  | fieldHandle _ instr_eq | constMethodType _ instr_eq =>
    refine unqueued rfl ?_
    simp +decide [statementIndices, instr_eq, Instr.isSilent, stringOutputs, classOutputs,
      methodHandleOutputs, fieldHandleOutputs, methodTypeOutputs, methodTypeRows,
      statementIndices_constantOutputs, readAmong_eq_nil (wordless_stringRows _),
      readAmong_eq_nil (wordless_positioned _ _ _)]
  | @monitor action _ instr_eq =>
    refine unqueued rfl ?_
    cases action <;>
      simp [statementIndices, instr_eq, Instr.isSilent, monitorOutputs, monitorRelation,
        statementRelations, Fact.indexColumn]
  | @arrayAccess access _ _ _ _ instr_eq =>
    refine unqueued rfl ?_
    cases access <;>
      simp [statementIndices, instr_eq, Instr.isSilent, arrayAccessOutputs, arrayRelation,
        statementRelations, Fact.indexColumn]
  | newInstance _ instr_eq | newArray _ instr_eq =>
    refine unqueued rfl ?_
    simp [statementIndices, instr_eq, Instr.isSilent, newInstanceOutputs, newArrayOutputs,
      statementIndices_allocated, readAmong_eq_nil (wordless_arrayTypeRows _)]
  | invoke call instr_eq | invokePolymorphic call instr_eq | invokeCustom call instr_eq =>
    refine unqueued rfl ?_
    simp +decide [statementIndices, instr_eq, Instr.isSilent, polymorphicCallOutputs,
      statementIndices_callOutputs, statementIndices_customCallOutputs]

/-! ## Runs -/

/-- A result that waits was made before an index.  If it was made just before, then by an invocation
exactly if the instruction there is one. -/
def FollowsUp (state : MethodState) (index : Nat) (previous : Option Instr) : Prop :=
  ∀ pending, state.carry.result = some pending → pending.index < index ∧
    (pending.index + 1 = index →
      pending.producer.isInvocation = previous.any Instr.isInvocation)

/-- A result that waits behind an instruction waited before, or was made by the instruction. -/
theorem Tells.result (told : cx.Tells here state outputs next) (pending : PendingResult)
    (result_eq : next.carry.result = some pending) :
    state.carry.result = some pending ∨ (pending.index = here.index ∧ here.instr.producesResult ∧
      pending.producer.isInvocation = here.instr.isInvocation) := by
  have produced : ∀ producer,
      (state.carry.produce here.index producer).result = some pending →
        here.instr.producesResult → producer.isInvocation = here.instr.isInvocation →
        pending.index = here.index ∧ here.instr.producesResult ∧
          pending.producer.isInvocation = here.instr.isInvocation := by
    intro producer made produces agree
    cases made
    exact ⟨rfl, produces, agree⟩
  cases told with
  | moveResult made =>
    have taken : (resultTaken state made.producer).carry.result = none := by
      cases made.producer <;> rfl
    cases taken.symm.trans result_eq
  | filledNewArray found instr_eq =>
    exact .inr (produced _ result_eq (by rw [instr_eq]; rfl) (by rw [instr_eq]; rfl))
  | invoke call instr_eq | invokePolymorphic call instr_eq | invokeCustom call instr_eq =>
    exact .inr (produced _ result_eq (by rw [instr_eq]; rfl) (by rw [instr_eq]; rfl))
  | const => exact .inl ((CarryOver.result_loadNarrow ..).symm.trans result_eq)
  | @fillArrayData array offset =>
    have kept : (awaitingFill here state array offset).carry.result = state.carry.result := by
      unfold awaitingFill
      split
      · rfl
      · split <;> rfl
    exact .inl (kept.symm.trans result_eq)
  | @switch kind key offset =>
    have kept : (awaitingCases here state offset).carry.result = state.carry.result := by
      unfold awaitingCases
      split <;> rfl
    exact .inl (kept.symm.trans result_eq)
  | _ => exact .inl result_eq

theorem FollowsUp.step {previous : Option Instr} (follows : FollowsUp state here.index previous)
    (told : cx.Tells here state outputs next) :
    FollowsUp next (here.index + 1) (some here.instr) := by
  intro pending result_eq
  rcases told.result pending result_eq with early | ⟨index_eq, -, agree⟩
  · have before := (follows pending early).1
    exact ⟨Nat.lt_succ_of_lt before, fun just => absurd (Nat.succ_inj.1 just) (Nat.ne_of_lt before)⟩
  · exact ⟨index_eq ▸ Nat.lt_succ_self _, fun _ => agree⟩

theorem Tells.isSilent_eq {previous : Option Instr} (told : cx.Tells here state outputs next)
    (follows : FollowsUp state here.index previous) :
    here.instr.isSilent (state.carry.result.any (·.producer.isInvocation)) =
      here.instr.isSilent (previous.any Instr.isInvocation) := by
  cases told with
  | moveResult pending instr_eq result_eq behind =>
    rw [result_eq, Option.any_some, (follows pending result_eq).2 behind]
  | _ => simp only [*, Instr.isSilent]

/-- Successive instructions write the statements of those that are not silent, or leave them as
field accesses. -/
theorem Recites.statements {index : Nat} {address : Address} {previous : Option Instr}
    {instrs : List Instr}
    (run : cx.Recites (locateFrom index address instrs) state outputs final)
    (follows : FollowsUp state index previous) :
    ∃ pushed : List FieldAccess, final.accesses.toList = state.accesses.toList ++ pushed ∧
      (statementIndices outputs ++ accessIndices pushed).Perm
        ((Instr.spoken index previous instrs).map (some <| toString ·)) := by
  induction instrs generalizing index address previous state outputs with
  | nil =>
    cases run
    exact ⟨[], (List.append_nil _).symm, .nil⟩
  | cons instr rest induction =>
    cases run with
    | @cons here _ _ next _ first others declared told _ later =>
      have follows_here : FollowsUp (state.reach address index) index previous := follows
      obtain ⟨pushed, accesses_eq, indices_eq⟩ := told.statements
      have follows_next : FollowsUp (next.withDeclared declared) (index + 1) (some instr) :=
        follows_here.step told
      obtain ⟨more, final_eq, perm⟩ := induction later follows_next
      rw [told.isSilent_eq follows_here] at indices_eq
      refine ⟨pushed ++ more, ?_, ?_⟩
      · rw [final_eq, ← List.append_assoc]
        exact congrArg (· ++ more) accesses_eq
      · have here_eq : (if instr.isSilent (previous.any Instr.isInvocation) then []
            else [index]).map (some <| toString ·) =
              statementIndices first ++ accessIndices pushed := by
          rw [indices_eq]
          split <;> rfl
        rw [accessIndices, List.map_append, Instr.spoken, List.map_append, here_eq,
          statementIndices, factsAmong_append, readAmong_append]
        refine List.Perm.trans ?_ (perm.append_left _)
        rw [List.append_assoc, List.append_assoc]
        exact (List.perm_append_comm_assoc _ _ _).append_left _

theorem Recital.statements {events : List Event} {extracted : ExtractedMethod}
    (recital : cx.Recital events extracted) :
    ((statementsOf (factsOf events)).map Fact.indexColumn ++
        accessIndices extracted.accesses).Perm
      ((Instr.spoken 1 none cx.definition.instructions).map (some <| toString ·)) := by
  have rows_eq : statementsOf (factsOf events) = statementsOf (factsAmong recital.body) :=
    recital.filter_factsOf_body (· ∈ statementRelations) (by decide)
  have entered : FollowsUp cx.entryState 1 none := by
    intro pending result_eq
    have result_none : cx.entryState.carry.result = none := cx.entryState_same .result (by simp)
    cases result_none.symm.trans result_eq
  obtain ⟨start, located_eq⟩ := cx.definition.exists_located_eq
  obtain ⟨pushed, accesses_eq, perm⟩ := (located_eq ▸ recital.recites).statements entered
  have empty : cx.entryState.accesses = #[] := cx.entryState_same .accesses (by simp)
  rw [rows_eq, recital.accesses_eq, accesses_eq, empty]
  exact perm

end MethodContext

/-- No instruction is lost, and none is written twice: an instruction that is not silent has one row
in the relations of statements or leaves one field access, and a silent one has neither.  No such
row or access has another index than those of the instructions. -/
theorem statement_rows {container : Container} {definition : MethodDef} {cache : SignatureCache}
    {extracted : ExtractedMethod}
    (value_eq : ((definition.extract container).run cache).value = .ok extracted) :
    let rows := statementsOf (factsOf ((definition.extract container).run cache).events)
    (∀ front instr back, definition.instructions = front ++ instr :: back →
      rows.countP (·.indexColumn = some (toString (front.length + 1))) +
          extracted.accesses.countP (·.index = front.length + 1) =
        if instr.isSilent (front.getLast?.any Instr.isInvocation) then 0 else 1) ∧
    (∀ row ∈ rows, ∃ index, 1 ≤ index ∧ index ≤ definition.instructions.length ∧
      row.indexColumn = some (toString index)) ∧
    ∀ access ∈ extracted.accesses,
      1 ≤ access.index ∧ access.index ≤ definition.instructions.length := by
  obtain ⟨cx, rfl, ⟨recital⟩⟩ := MethodDef.exists_recital value_eq
  have perm := recital.statements
  have text_inj : Function.Injective fun index : Nat => some (toString index) :=
    fun first second same => Nat.repr_injective (Option.some.inj same)
  have inside : ∀ column, column ∈ (statementsOf (factsOf
        ((cx.definition.extract container).run cache).events)).map Fact.indexColumn ++
          accessIndices extracted.accesses →
      ∃ index, 1 ≤ index ∧ index ≤ cx.definition.instructions.length ∧
        column = some (toString index) := by
    intro column member
    obtain ⟨index, spoken, rfl⟩ := List.mem_map.1 (perm.mem_iff.1 member)
    obtain ⟨positive, lt⟩ := Instr.mem_spoken spoken
    exact ⟨index, positive, by omega, rfl⟩
  refine ⟨fun front instr back instrs_eq => ?_, fun row member => ?_, fun access member => ?_⟩
  · have counted := perm.count_eq (some (toString (front.length + 1)))
    rw [instrs_eq, List.count_map_of_injective _ _ text_inj, Nat.add_comm front.length,
      Instr.count_spoken, Option.or_none, List.count_append, List.count_eq_countP,
      List.count_eq_countP, accessIndices, List.countP_map, List.countP_map] at counted
    rw [← counted, Nat.add_comm 1]
    congr 1
    · refine List.countP_congr fun row _ => ?_
      simp
    · refine List.countP_congr fun access _ => ?_
      simp
  · exact inside _ (List.mem_append_left _ (List.mem_map_of_mem member))
  · obtain ⟨index, positive, le, text_eq⟩ :=
      inside _ (List.mem_append_right _ (List.mem_map_of_mem member))
    rw [text_inj text_eq]
    exact ⟨positive, le⟩

/-- An object and a call are written once, a result that is moved out of a call is not, and a field
access waits instead. -/
theorem statement_rows_errands :
    ∃ extracted : ExtractedMethod,
      let rows := statementsOf
        (factsOf (((loneMethod errands).extract errandContainer).run .empty).events)
      let written (index : Nat) := rows.countP (·.indexColumn = some (toString index))
      let waiting (index : Nat) := extracted.accesses.countP (·.index = index)
      written 2 + waiting 2 = 1 ∧ written 4 + waiting 4 = 0 ∧ written 5 + waiting 5 = 1 ∧
        written 6 = 0 ∧ waiting 6 = 1 := by
  obtain ⟨extracted, value_eq, accesses_eq⟩ := exists_extract_errands
  obtain ⟨counts, -⟩ := statement_rows value_eq
  have waits : extracted.accesses.countP (·.index = 6) = 1 := by
    have counted := congrArg (List.countP (·.2 = 6)) accesses_eq
    rw [List.countP_map] at counted
    exact counted
  have stored := counts [_, _, _, _, _] (.instanceField .store .plain ⟨0⟩ ⟨0⟩ 0) [_] rfl
  have unwritten := Nat.add_eq_right.1 (stored.trans waits.symm)
  exact ⟨extracted, counts [_] _ _ rfl, counts [_, _, _] _ _ rfl, counts [_, _, _, _] _ _ rfl,
    unwritten, waits⟩

end DalvikFacts
