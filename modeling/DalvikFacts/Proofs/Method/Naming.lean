import DalvikFacts.Proofs.Method.Names
import DalvikFacts.Proofs.Pending

/-!
# Identifiers of instructions and objects

Each instruction signs its rows with one name, also those that are written later: the edges of
branches, the cases of switches, the elements of arrays, the result of an invocation and the access
to a field.  No two instructions share a name, and no two objects.
-/

namespace DalvikFacts

/-- The relations of rows that an instruction writes for others: for the invocation whose result it
moves out, and for those that fill arrays from a payload. -/
def borrowedRelations : List Relation :=
  [.assignReturnValue, .arrayInitialValueFromConst]

namespace MethodContext

/-- What waits in a state belongs to the instructions of a table. -/
structure Holds (cx : MethodContext) (table : NameTable) (state : MethodState) : Prop where
  result : ∀ index insn, state.carry.result = some ⟨index, .invocation insn⟩ →
    ∃ origin, table.Lists .assignReturnValue insn origin
  fills : ∀ address, ∀ fill ∈ state.fills.waitingAt address,
    table.Lists .arrayInitialValueFromConst (cx.assignInsn fill.index) fill.index
  switches : ∀ address, ∀ use ∈ state.switches.waitingAt address, ∀ kind,
    table.Lists (caseRelation kind) (cx.switchInsn use.index) use.index
  edges : ∀ edge ∈ state.addresses.edges.toList,
    table.Lists edge.relation edge.insn edge.index
  accesses : ∀ access ∈ state.accesses.toList,
    table.Lists access.relation access.insn access.index

variable {cx : MethodContext} {here : LocatedInstr} {state next final : MethodState}
  {table : NameTable} {outputs : List Output}

/-! ## What waits -/

namespace Holds

theorem of_same (holds : cx.Holds table state)
    (result_eq : next.carry.result = state.carry.result) (fills_eq : next.fills = state.fills)
    (switches_eq : next.switches = state.switches)
    (edges_eq : next.addresses.edges = state.addresses.edges)
    (accesses_eq : next.accesses = state.accesses) : cx.Holds table next where
  result := by rw [result_eq]; exact holds.result
  fills := by rw [fills_eq]; exact holds.fills
  switches := by rw [switches_eq]; exact holds.switches
  edges := by rw [edges_eq]; exact holds.edges
  accesses := by rw [accesses_eq]; exact holds.accesses

theorem queued (holds : cx.Holds table state) {relation : Relation} {insn : String}
    (lists : table.Lists relation insn here.index) :
    cx.Holds table (queued here state relation insn) := by
  refine ⟨holds.result, holds.fills, holds.switches, fun edge edge_mem => ?_, holds.accesses⟩
  rcases List.mem_append.1 (Array.toList_push ▸ edge_mem) with early | here_mem
  · exact holds.edges edge early
  · cases List.mem_singleton.1 here_mem
    exact lists

theorem accessed (holds : cx.Holds table state) {access : Access} {value : Reg}
    {object : Option Reg} {field : FieldSig}
    (lists : table.Lists (fieldRelation access object.isSome)
      (cx.nextInsn state (fieldKind access field)) here.index) :
    cx.Holds table (cx.accessed here state access value object field) := by
  refine ⟨holds.result, holds.fills, holds.switches, holds.edges, fun found found_mem => ?_⟩
  rcases List.mem_append.1 (Array.toList_push ▸ found_mem) with early | here_mem
  · exact holds.accesses found early
  · cases List.mem_singleton.1 here_mem
    exact lists

theorem invoked (holds : cx.Holds table state) {kind : String}
    (lists : table.Lists .assignReturnValue (cx.nextInsn state kind) here.index) :
    cx.Holds table (cx.invoked here state kind) := by
  refine ⟨fun index insn result_eq => ?_, holds.fills, holds.switches, holds.edges, holds.accesses⟩
  cases result_eq
  exact ⟨here.index, lists⟩

theorem arrayFilled (holds : cx.Holds table state) (elements : List Reg) (type : Descriptor) :
    cx.Holds table (arrayFilled here state elements type) := by
  refine ⟨fun index insn result_eq => ?_, holds.fills, holds.switches, holds.edges, holds.accesses⟩
  cases result_eq

theorem resultTaken (holds : cx.Holds table state) (producer : Producer) :
    cx.Holds table (resultTaken state producer) := by
  cases producer with
  | invocation | filledArray =>
    refine ⟨fun index insn result_eq => ?_, holds.fills, holds.switches, holds.edges,
      holds.accesses⟩
    cases result_eq

theorem awaitingCases (holds : cx.Holds table state)
    (lists : ∀ kind, table.Lists (caseRelation kind) (cx.switchInsn here.index) here.index)
    (offset : Int) : cx.Holds table (awaitingCases here state offset) := by
  unfold MethodContext.awaitingCases
  split
  · exact holds
  · refine ⟨holds.result, holds.fills, fun address use use_mem kind => ?_, holds.edges,
      holds.accesses⟩
    rcases Pending.mem_waitingAt_register use_mem with early | rfl
    · exact holds.switches address use early kind
    · exact lists kind

theorem awaitingFill (holds : cx.Holds table state)
    (lists : table.Lists .arrayInitialValueFromConst (cx.assignInsn here.index) here.index)
    (array : Reg) (offset : Int) : cx.Holds table (awaitingFill here state array offset) := by
  unfold MethodContext.awaitingFill
  split
  · exact holds
  · split
    · exact holds.of_same rfl rfl rfl rfl rfl
    · refine ⟨holds.result, fun address fill fill_mem => ?_, holds.switches, holds.edges,
        holds.accesses⟩
      rcases Pending.mem_waitingAt_register fill_mem with early | rfl
      · exact holds.fills address fill early
      · exact lists

theorem releasedFills (holds : cx.Holds table state) :
    cx.Holds table (releasedFills here state) := by
  refine ⟨holds.result, fun address fill fill_mem => ?_, holds.switches, holds.edges,
    holds.accesses⟩
  exact holds.fills address fill (Pending.mem_waitingAt_release fill_mem)

/-- The edges of the cases of switches hold the names of the switches. -/
theorem releasedCases (holds : cx.Holds table state) (kind : SwitchKind)
    (cases : List (Int × Int)) : cx.Holds table (cx.releasedCases here state kind cases) := by
  refine ⟨holds.result, holds.fills, fun address use use_mem => ?_, fun edge edge_mem => ?_,
    holds.accesses⟩
  · exact holds.switches address use (Pending.mem_waitingAt_release use_mem)
  · rcases List.mem_append.1 (Array.toList_appendList ▸ edge_mem) with early | released
    · exact holds.edges edge early
    · obtain ⟨use, use_mem, of_use⟩ := List.mem_flatMap.1 released
      obtain ⟨⟨key, offset⟩, -, rfl⟩ := List.mem_map.1 of_use
      exact holds.switches here.address use use_mem kind

end Holds

/-! ## Instructions -/

/-- An instruction is named by a kind with its index, or with the next number of that kind, which
is used up. -/
structure Names (here : LocatedInstr) (state next : MethodState) (kind : String) (number : Nat) :
    Prop where
  named : here.instr.NamedAs kind
  indexed : here.instr.isNumbered = false → number = here.index
  counted : here.instr.isNumbered = true →
    number = state.counters.peek kind ∧ next.counters = state.counters.advance kind

theorem Names.of_index {kind : String} (named : here.instr.NamedAs kind)
    (indexed : here.instr.isNumbered = false) : Names here state next kind here.index where
  named
  indexed _ := rfl
  counted numbered := by cases indexed.symm.trans numbered

theorem Names.of_counter {kind : String} (named : here.instr.NamedAs kind)
    (numbered : here.instr.isNumbered = true)
    (counted : next.counters = state.counters.advance kind) :
    Names here state next kind (state.counters.peek kind) where
  named
  indexed indexed := by cases indexed.symm.trans numbered
  counted _ := ⟨rfl, counted⟩

/-- An instruction signs its outputs with a name: what it leaves to be written later bears that
name, and so do its rows, apart from those that it writes for others. -/
structure Signs (cx : MethodContext) (here : LocatedInstr) (name : String) (state : MethodState)
    (outputs : List Output) (next : MethodState) : Prop where
  holds : ∀ table : NameTable, (here, name) ∈ table → cx.Holds table state → cx.Holds table next
  credits : ∀ table : NameTable, (here, name) ∈ table → cx.Holds table state →
    table.CreditsAll outputs
  own : ∀ fact ∈ factsAmong outputs, fact.relation ∈ borrowedRelations ∨
    NameTable.Credits [(here, name)] fact

theorem Signs.of_own {name : String}
    (holds : ∀ table : NameTable, (here, name) ∈ table → cx.Holds table state →
      cx.Holds table next)
    (credits : NameTable.CreditsAll [(here, name)] outputs) :
    cx.Signs here name state outputs next where
  holds
  credits _ member _ := credits.mono (List.cons_subset.2 ⟨member, List.nil_subset _⟩)
  own fact member := .inr (credits fact member)

theorem signs_result (own : ∀ relation ∈ [Relation.assignHeapAllocation,
      .arrayInitialValueFromLocal], relation ∈ here.instr.ownRelations) (dst : Reg)
    {pending : PendingResult} (result_eq : state.carry.result = some pending) :
    cx.Signs here (cx.assignInsn here.index) state
      (cx.resultOutputs here state dst pending.producer) (resultTaken state pending.producer) := by
  obtain ⟨index, producer⟩ := pending
  cases producer with
  | filledArray type elements =>
    exact .of_own (fun _ _ holds => holds.resultTaken _)
      (creditsAll_filledOutputs here own dst type elements)
  | invocation insn =>
    refine ⟨fun _ _ holds => holds.resultTaken _, fun table _ holds => ?_, fun fact member => ?_⟩
    · -- the row holds the name of the invocation
      obtain ⟨origin, lists⟩ := holds.result index insn result_eq
      refine allFacts_mention.2 (allFacts_row.2 ⟨?_, by simp⟩)
      intro column column_mem
      cases column_mem
      exact ⟨insn, origin, lists, rfl, fun place place_mem => by cases place_mem⟩
    · cases List.mem_singleton.1 member
      exact .inl (by simp [borrowedRelations])

theorem signs_arrayPayload {width : Nat} {values : List Int} {name : String} :
    cx.Signs here name state
      (cx.payloadOutputs here width values (state.fills.waitingAt here.address))
      (releasedFills here state) where
  holds _ _ holds := holds.releasedFills
  credits _ _ holds := creditsAll_payloadOutputs here _ _ (holds.fills here.address)
  own fact member := by
    have element : ∀ type fill, ∀ fact ∈ factsAmong (cx.filled type values fill),
        fact.relation ∈ borrowedRelations ∨ NameTable.Credits [(here, name)] fact := by
      intro type fill fact member
      rw [filled, factsAmong_cons_mention, factsAmong_flatMap] at member
      obtain ⟨item, -, written⟩ := List.mem_flatMap.1 member
      rcases List.mem_cons.1 written with rfl | last
      · exact .inr (by simp [NameTable.Credits])
      · cases List.mem_singleton.1 last
        exact .inl (by simp [borrowedRelations])
    unfold payloadOutputs at member
    split at member
    · cases member
    · split at member
      · cases member
      · rw [factsAmong_flatMap] at member
        obtain ⟨fill, -, written⟩ := List.mem_flatMap.1 member
        exact element _ fill fact written

theorem lists_own {name : String} {relation : Relation} {table : NameTable}
    (own : relation ∈ here.instr.ownRelations) (member : (here, name) ∈ table) :
    table.Lists relation name here.index :=
  ⟨here, member, own, rfl⟩

/-- An instruction has one name, and signs its outputs with it. -/
def Signed (cx : MethodContext) (here : LocatedInstr) (state : MethodState)
    (outputs : List Output) (next : MethodState) : Prop :=
  ∃ kind number, Names here state next kind number ∧
    cx.Signs here (cx.insn kind number) state outputs next

theorem signed_of_assigns (passive : here.instr.family ≠ .control)
    (memberless : here.instr.family ≠ .member)
    (signs : cx.Signs here (cx.assignInsn here.index) state outputs next) :
    cx.Signed here state outputs next := by
  have named : here.instr.NamedAs assignKind := by
    cases instr_eq : here.instr <;> simp_all [Instr.family, Instr.NamedAs]
  have indexed : here.instr.isNumbered = false := by
    cases instr_eq : here.instr <;> simp_all [Instr.family, Instr.isNumbered]
  exact ⟨assignKind, here.index, .of_index named indexed, signs⟩

section Families

variable (told : cx.Tells here state outputs next)

include told

theorem Tells.signed_transfer (family_eq : here.instr.family = .transfer) :
    cx.Signed here state outputs next := by
  refine signed_of_assigns (by simp [family_eq]) (by simp [family_eq]) ?_
  cases told with
  | nop | optimized => exact .of_own (fun _ _ holds => holds) (by simp)
  | moveException =>
    exact .of_own (fun _ _ holds => holds.of_same rfl rfl rfl rfl rfl) (by simp)
  | move instr_eq | constWide instr_eq =>
    refine .of_own (fun _ _ holds => holds) ?_
    simp [moveOutputs, numberOutputs, NameTable.Credits, instr_eq, Instr.ownRelations]
  | const instr_eq =>
    refine .of_own
      (fun _ _ holds => holds.of_same (CarryOver.result_loadNarrow ..) rfl rfl rfl rfl) ?_
    simp [numberOutputs, NameTable.Credits, instr_eq, Instr.ownRelations]
  | moveResult pending instr_eq result_eq =>
    exact signs_result (by simp [instr_eq, Instr.ownRelations]) _ result_eq
  | _ => simp [*, Instr.family] at family_eq

theorem Tells.signed_operation (family_eq : here.instr.family = .operation) :
    cx.Signed here state outputs next := by
  refine signed_of_assigns (by simp [family_eq]) (by simp [family_eq]) ?_
  cases told with
  | arrayLength instr_eq | unop instr_eq | compare instr_eq | binop instr_eq
  | binopInPlace instr_eq | binopLiteral instr_eq | binopSmallLiteral instr_eq =>
    refine .of_own (fun _ _ holds => holds) ?_
    simp [unopOutputs, binopOutputs, binopLiteralOutputs, operand, NameTable.Credits,
      instr_eq, Instr.ownRelations]
  | @arrayAccess access _ _ _ _ instr_eq =>
    refine .of_own (fun _ _ holds => holds) ?_
    cases access <;>
      simp [arrayAccessOutputs, arrayRelation, NameTable.Credits, instr_eq, Instr.ownRelations]
  | _ => simp [*, Instr.family] at family_eq

theorem Tells.signed_constant (family_eq : here.instr.family = .constant) :
    cx.Signed here state outputs next := by
  have own : .assignHeapAllocation ∈ here.instr.ownRelations := by
    cases instr_eq : here.instr <;> simp_all [Instr.family, Instr.ownRelations]
  refine signed_of_assigns (by simp [family_eq]) (by simp [family_eq]) ?_
  cases told with
  | constString =>
    exact .of_own (fun _ _ holds => holds) (allFacts_append.2
      ⟨creditsAll_stringRows _, creditsAll_constantOutputs here own _ _⟩)
  | constClass | methodHandle =>
    exact .of_own (fun _ _ holds => holds) (allFacts_row.2
      ⟨by simp [NameTable.Credits], creditsAll_constantOutputs here own _ _⟩)
  | fieldHandle =>
    exact .of_own (fun _ _ holds => holds) (creditsAll_constantOutputs here own _ _)
  | constMethodType =>
    refine .of_own (fun _ _ holds => holds) (allFacts_append.2
      ⟨allFacts_append.2 ⟨?_, ?_⟩, creditsAll_constantOutputs here own _ _⟩)
    · exact allFacts_map fun _ => by simp [NameTable.Credits]
    · simp [NameTable.Credits]
  | _ => simp [*, Instr.family] at family_eq

theorem Tells.signed_object (family_eq : here.instr.family = .object) :
    cx.Signed here state outputs next := by
  refine signed_of_assigns (by simp [family_eq]) (by simp [family_eq]) ?_
  cases told with
  | checkCast _ instr_eq | instanceOf _ instr_eq =>
    refine .of_own (fun _ _ holds => holds) ?_
    simp [castOutputs, instanceOfOutputs, NameTable.Credits, instr_eq, Instr.ownRelations]
  | newInstance name instr_eq =>
    have own : .assignHeapAllocation ∈ here.instr.ownRelations := by
      simp [instr_eq, Instr.ownRelations]
    exact .of_own (fun _ _ holds => holds.of_same rfl rfl rfl rfl rfl)
      (creditsAll_allocated here own _ _ _ false)
  | newArray found instr_eq =>
    have own : .assignHeapAllocation ∈ here.instr.ownRelations := by
      simp [instr_eq, Instr.ownRelations]
    exact .of_own (fun _ _ holds => holds.of_same rfl rfl rfl rfl rfl) (allFacts_append.2
      ⟨creditsAll_arrayTypeRows _, creditsAll_allocated here own _ _ _ _⟩)
  | filledNewArray =>
    exact .of_own (fun _ _ holds => holds.arrayFilled _ _) (creditsAll_arrayTypeRows _)
  | _ => simp [*, Instr.family] at family_eq

theorem Tells.signed_control (family_eq : here.instr.family = .control) :
    cx.Signed here state outputs next := by
  cases told with
  | returnVoid instr_eq =>
    refine ⟨"return-void", _, .of_index (by simp [instr_eq, Instr.NamedAs])
      (by rw [instr_eq]; rfl), .of_own (fun _ _ holds => holds) ?_⟩
    simp [returnVoidOutputs, NameTable.Credits, instr_eq, Instr.ownRelations]
  | returnValue instr_eq =>
    refine ⟨"return", _, .of_index (by simp [instr_eq, Instr.NamedAs]) (by rw [instr_eq]; rfl),
      .of_own (fun _ _ holds => holds) ?_⟩
    simp [returnOutputs, NameTable.Credits, instr_eq, Instr.ownRelations]
  | @monitor action _ instr_eq =>
    refine ⟨monitorKind action, _, .of_index (by simp [instr_eq, Instr.NamedAs])
      (by rw [instr_eq]; rfl), .of_own (fun _ _ holds => holds) ?_⟩
    cases action <;>
      simp [monitorOutputs, monitorRelation, NameTable.Credits, instr_eq, Instr.ownRelations]
  | throw instr_eq =>
    refine ⟨_, _, .of_counter (by simp [instr_eq, Instr.NamedAs]) (by rw [instr_eq]; rfl) rfl,
      .of_own (fun _ _ holds => holds.of_same rfl rfl rfl rfl rfl) ?_⟩
    simp [throwOutputs, nextInsn, NameTable.Credits, instr_eq, Instr.ownRelations]
  | goto instr_eq =>
    exact ⟨"goto", _, .of_index (by simp [instr_eq, Instr.NamedAs]) (by rw [instr_eq]; rfl),
      .of_own (fun _ member holds =>
        holds.queued (lists_own (by simp [instr_eq, Instr.ownRelations]) member)) (by simp)⟩
  | branch instr_eq | branchZero instr_eq =>
    exact ⟨"if", _, .of_index (by simp [instr_eq, Instr.NamedAs]) (by rw [instr_eq]; rfl),
      .of_own (fun _ member holds =>
        holds.queued (lists_own (by simp [instr_eq, Instr.ownRelations]) member))
        (creditsAll_testOutputs here _ (by simp [instr_eq, Instr.ownRelations]) _ _ _)⟩
  | @switch kind key offset instr_eq =>
    have own_cases : ∀ kind, caseRelation kind ∈ here.instr.ownRelations := by
      intro kind
      cases kind <;> simp [instr_eq, Instr.ownRelations, caseRelation]
    exact ⟨"switch", _, .of_index (by simp [instr_eq, Instr.NamedAs]) (by rw [instr_eq]; rfl),
      .of_own (fun _ member holds =>
        holds.awaitingCases (fun kind => lists_own (own_cases kind) member) _)
        (creditsAll_switchOutputs here kind (by simp [instr_eq, Instr.ownRelations]) _ _)⟩
  | _ => simp [*, Instr.family] at family_eq

theorem Tells.signed_member (family_eq : here.instr.family = .member) :
    cx.Signed here state outputs next := by
  cases told with
  | @instanceField access _ _ _ _ field instr_eq | @staticField access _ _ _ field instr_eq =>
    exact ⟨fieldKind access field, _, .of_counter (by simp [instr_eq, Instr.NamedAs])
      (by rw [instr_eq]; rfl) rfl, .of_own (fun _ member holds =>
        holds.accessed (lists_own (by simp [instr_eq, Instr.ownRelations]) member))
        (by simp [fieldOutputs])⟩
  | invoke call instr_eq kind_eq =>
    exact ⟨call.callee.qualifiedName, _, .of_counter (by rw [instr_eq]; exact ⟨_, rfl⟩)
      (by rw [instr_eq]; rfl) rfl, .of_own (fun _ member holds =>
        holds.invoked (lists_own (by simp [instr_eq, Instr.ownRelations]) member))
        (creditsAll_callOutputs here _ call (by simp [instr_eq, kind_eq, Instr.ownRelations]))⟩
  | invokePolymorphic call instr_eq kind_eq =>
    refine ⟨call.callee.qualifiedName, _, .of_counter (by rw [instr_eq]; exact ⟨_, rfl⟩)
      (by rw [instr_eq]; rfl) rfl, .of_own (fun _ member holds =>
        holds.invoked (lists_own (by simp [instr_eq, Instr.ownRelations]) member))
        (allFacts_append.2 ⟨creditsAll_callOutputs here _ call ?_, ?_⟩)⟩
    · simp [instr_eq, kind_eq, CallKind.relation, Instr.ownRelations]
    · simp [nextInsn, NameTable.Credits, instr_eq, Instr.ownRelations]
  | invokeCustom call instr_eq =>
    exact ⟨siteKind call, _, .of_counter (by rw [instr_eq]; exact ⟨_, rfl⟩)
      (by rw [instr_eq]; rfl) rfl, .of_own (fun _ member holds =>
        holds.invoked (lists_own (by simp [instr_eq, Instr.ownRelations]) member))
        (creditsAll_customCallOutputs here _ call (by simp [instr_eq, Instr.ownRelations]))⟩
  | _ => simp [*, Instr.family] at family_eq

theorem Tells.signed_table (family_eq : here.instr.family = .table) :
    cx.Signed here state outputs next := by
  refine signed_of_assigns (by simp [family_eq]) (by simp [family_eq]) ?_
  cases told with
  | fillArrayData instr_eq =>
    exact .of_own (fun _ member holds =>
      holds.awaitingFill (lists_own (by simp [instr_eq, Instr.ownRelations]) member) _ _)
      (creditsAll_fillNotices here _ _)
  | arrayPayload => exact signs_arrayPayload
  | packedSwitchPayload | sparseSwitchPayload =>
    refine .of_own (fun _ _ holds => holds.releasedCases _ _) ?_
    unfold casesNotices
    split <;> simp
  | _ => simp [*, Instr.family] at family_eq

theorem Tells.signed : cx.Signed here state outputs next := by
  cases family_eq : here.instr.family with
  | transfer => exact told.signed_transfer family_eq
  | operation => exact told.signed_operation family_eq
  | constant => exact told.signed_constant family_eq
  | object => exact told.signed_object family_eq
  | control => exact told.signed_control family_eq
  | member => exact told.signed_member family_eq
  | table => exact told.signed_table family_eq

end Families

/-! ## Runs -/

/-- The name of an instruction that is done in a state or later: it is of a kind of the instruction,
with its index or with a number that is not used up yet. -/
def NamedFrom (cx : MethodContext) (state : MethodState) (entry : LocatedInstr × String) : Prop :=
  ∃ kind number, entry.1.instr.NamedAs kind ∧ entry.2 = cx.insn kind number ∧
    (entry.1.instr.isNumbered = false → number = entry.1.index) ∧
    (entry.1.instr.isNumbered = true → state.counters.peek kind ≤ number)

theorem NamedFrom.mono {entry : LocatedInstr × String} (named : cx.NamedFrom next entry)
    (fewer : ∀ kind, state.counters.peek kind ≤ next.counters.peek kind) :
    cx.NamedFrom state entry := by
  obtain ⟨kind, number, kind_named, name_eq, indexed, counted⟩ := named
  exact ⟨kind, number, kind_named, name_eq, indexed,
    fun numbered => (fewer kind).trans (counted numbered)⟩

/-- No instruction behind another one has the name of that one. -/
theorem Names.ne_of_namedFrom {kind : String} {number : Nat}
    (names : Names here state next kind number) {entry : LocatedInstr × String}
    (named : cx.NamedFrom next entry) (behind : here.index < entry.1.index) :
    entry.2 ≠ cx.insn kind number := by
  obtain ⟨other, count, other_named, name_eq, indexed, counted⟩ := named
  intro same
  obtain ⟨rfl, rfl⟩ := Identifier.instruction_eq_iff.1 (name_eq.symm.trans same)
  cases here_numbered : here.instr.isNumbered with
  | false =>
    have here_eq := names.indexed here_numbered
    have here_kind := names.named.mem_indexedKinds here_numbered
    cases entry_numbered : entry.1.instr.isNumbered with
    | false => exact Nat.ne_of_lt behind (here_eq.symm.trans (indexed entry_numbered))
    | true => exact other_named.not_mem_indexedKinds entry_numbered here_kind
  | true =>
    obtain ⟨here_eq, advanced⟩ := names.counted here_numbered
    cases entry_numbered : entry.1.instr.isNumbered with
    | false =>
      have entry_kind := other_named.mem_indexedKinds entry_numbered
      exact names.named.not_mem_indexedKinds here_numbered entry_kind
    | true =>
      have later := counted entry_numbered
      rw [advanced, Counters.peek_advance_self, ← here_eq] at later
      exact Nat.not_succ_le_self _ later

/-- Successive instructions have different names, which their rows hold. -/
theorem Recites.names {instrs : List LocatedInstr} (run : cx.Recites instrs state outputs final)
    (sorted : instrs.Pairwise fun first second => first.index < second.index) :
    ∃ table : NameTable, table.map Prod.fst = instrs ∧ (table.map Prod.snd).Nodup ∧
      (∀ entry ∈ table, cx.NamedFrom state entry) ∧
      (∀ wider : NameTable, table ⊆ wider → cx.Holds wider state →
        cx.Holds wider final ∧ wider.CreditsAll outputs) ∧
      ∃ written : LocatedInstr → List Fact, factsAmong outputs = instrs.flatMap written ∧
        ∀ entry ∈ table, ∀ fact ∈ written entry.1, fact.relation ∈ borrowedRelations ∨
          NameTable.Credits [entry] fact := by
  induction run with
  | nil =>
    exact ⟨[], rfl, .nil, by simp, fun wider _ holds => ⟨holds, by simp⟩, fun _ => [], rfl,
      by simp⟩
  | @cons here rest state next final first others declared told within later induction =>
    obtain ⟨ahead, rest_sorted⟩ := List.pairwise_cons.1 sorted
    obtain ⟨kind, number, names, signs⟩ := told.signed
    obtain ⟨table, instrs_eq, nodup, named, rest_credits, written, written_eq, rest_own⟩ :=
      induction rest_sorted
    have named_next : ∀ entry ∈ table, cx.NamedFrom next entry := named
    have behind : ∀ entry ∈ table, here.index < entry.1.index :=
      fun entry member => ahead entry.1 (instrs_eq ▸ List.mem_map_of_mem member)
    refine ⟨(here, cx.insn kind number) :: table, ?_, ?_, ?_, fun wider subset holds => ?_,
      fun other => if other = here then factsAmong first else written other, ?_, ?_⟩
    · rw [List.map_cons, instrs_eq]
    · refine List.nodup_cons.2 ⟨fun member => ?_, nodup⟩
      obtain ⟨entry, entry_mem, name_eq⟩ := List.mem_map.1 member
      exact names.ne_of_namedFrom (named_next entry entry_mem) (behind entry entry_mem) name_eq
    · refine List.forall_mem_cons.2 ⟨⟨kind, number, names.named, rfl, names.indexed, ?_⟩, ?_⟩
      · exact fun numbered => Nat.le_of_eq (names.counted numbered).1.symm
      · exact fun entry member => (named_next entry member).mono told.peek_le
    · obtain ⟨here_mem, rest_subset⟩ := List.cons_subset.1 subset
      have arrived : cx.Holds wider (state.reach here.address here.index) :=
        holds.of_same rfl rfl rfl rfl rfl
      have holds_next := signs.holds wider here_mem arrived
      have first_credits := signs.credits wider here_mem arrived
      have left : cx.Holds wider (next.withDeclared declared) :=
        holds_next.of_same rfl rfl rfl rfl rfl
      obtain ⟨holds_final, others_credits⟩ := rest_credits wider rest_subset left
      exact ⟨holds_final, allFacts_append.2 ⟨first_credits, others_credits⟩⟩
    · have rest_eq : (rest.flatMap fun other =>
          if other = here then factsAmong first else written other) = rest.flatMap written := by
        refine List.flatMap_congr fun other member => if_neg ?_
        rintro rfl
        exact Nat.lt_irrefl _ (ahead _ member)
      rw [List.flatMap_cons, if_pos rfl, rest_eq, factsAmong_append, written_eq]
    · refine List.forall_mem_cons.2 ⟨fun fact member => ?_, fun entry entry_mem fact member => ?_⟩
      · dsimp only at member
        rw [if_pos rfl] at member
        exact signs.own fact member
      · have other : entry.1 ≠ here := by
          intro same
          exact Nat.ne_of_lt (behind entry entry_mem) (same ▸ rfl)
        dsimp only at member
        rw [if_neg other] at member
        exact rest_own entry entry_mem fact member

theorem holds_entryState (table : NameTable) : cx.Holds table cx.entryState := by
  have result_eq : cx.entryState.carry.result = none := cx.entryState_same .result (by simp)
  have fills_eq : cx.entryState.fills = .empty := cx.entryState_same .fills (by simp)
  have switches_eq : cx.entryState.switches = .empty := cx.entryState_same .switches (by simp)
  have edges_eq : cx.entryState.addresses.edges = #[] := cx.entryState_same .edges (by simp)
  have accesses_eq : cx.entryState.accesses = #[] := cx.entryState_same .accesses (by simp)
  have start : cx.Holds table .start := by
    refine ⟨fun _ _ waiting => ?_, fun _ _ member => ?_, fun _ _ member => ?_, fun _ member => ?_,
      fun _ member => ?_⟩
    · cases waiting
    · simp [MethodState.start, Pending.waitingAt, Pending.empty] at member
    · simp [MethodState.start, Pending.waitingAt, Pending.empty] at member
    · simp [MethodState.start, AddressMap.empty] at member
    · simp [MethodState.start] at member
  exact start.of_same result_eq fills_eq switches_eq edges_eq accesses_eq

/-- The rows of the end hold the names of the instructions whose edges they are. -/
theorem Recital.credits_ending {events : List Event} {extracted : ExtractedMethod}
    (recital : cx.Recital events extracted) (holds : cx.Holds table recital.final) :
    table.CreditsAll recital.ending := by
  have other : ∀ relations : List Relation, (∀ relation ∈ relations,
      relation.insnColumn? = none) → ∀ fact : Fact, fact.relation ∈ relations →
        table.Credits fact := by
    intro relations apart fact member column column_mem
    cases (apart _ member).symm.trans column_mem
  intro fact member
  rcases recital.ending_eq with ending_eq | ⟨code, -, ending_eq⟩
  · rw [ending_eq] at member
    cases member
  · rw [ending_eq, factsAmong_finishOutputs] at member
    rcases List.mem_append.1 member with handler | late
    · exact other handlerRelations (by decide) fact (cx.relation_exceptionOutputs handler)
    · rw [AddressMap.run_write, factsOf_append] at late
      rcases List.mem_append.1 late with indexed | branched
      · obtain ⟨mark, -, fact_eq⟩ := List.mem_map.1 ((mem_factsOf _).1 indexed)
        cases fact_eq
        exact other [.dexInstructionAddressMap] (by decide) _ List.mem_cons_self
      · obtain ⟨edge, edge_mem, fact_eq⟩ := List.mem_map.1 ((mem_factsOf _).1 branched)
        unfold AddressMap.edgeEvent at fact_eq
        split at fact_eq
        · cases fact_eq
          exact NameTable.credits_edge (holds.edges edge edge_mem)
            (recital.queues.wellFormed edge edge_mem)
        · cases fact_eq

end MethodContext

/-- A table of the names of the instructions of a method.  The names are distinct, and each is of a
kind of its instruction, with the index of the instruction or a number.  A row that holds the name
of an instruction holds that of one with such rows, and the index of that one if it holds an index;
so does a field access.  The rows come in the order of the instructions, each with the name of the
instruction that writes it, apart from those that are borrowed and those of edges. -/
structure Naming (method : String) (instrs : List LocatedInstr) (facts : List Fact)
    (accesses : List FieldAccess) (table : NameTable) : Prop where
  instrs_eq : table.map Prod.fst = instrs
  distinct : (table.map Prod.snd).Nodup
  form : ∀ entry ∈ table, ∃ kind number, entry.1.instr.NamedAs kind ∧
    entry.2 = Identifier.instruction method kind number ∧
    (entry.1.instr.isNumbered = false → number = entry.1.index)
  rows : ∀ fact ∈ facts, table.Credits fact
  accesses : ∀ access ∈ accesses, table.Lists access.relation access.insn access.index
  own : ∃ written : LocatedInstr → List Fact,
    facts.filter (fun fact => fact.relation.insnColumn?.isSome && fact.relation ∉ edgeRelations) =
      instrs.flatMap written ∧
    ∀ entry ∈ table, ∀ fact ∈ written entry.1, fact.relation ∈ borrowedRelations ∨
      NameTable.Credits [entry] fact

/-- No two instructions of a method share an identifier, and no two objects. -/
theorem identifiers_distinct {container : Container} {definition : MethodDef}
    {cache : SignatureCache} {extracted : ExtractedMethod}
    (value_eq : ((definition.extract container).run cache).value = .ok extracted) :
    let events := ((definition.extract container).run cache).events
    (∃ table, Naming extracted.id definition.located (factsOf events) extracted.accesses table) ∧
    ∃ heaps : List (String × Nat),
      rowsOf .normalHeap events = (heaps.map fun heap =>
        [Identifier.allocation extracted.id heap.1 heap.2, heap.1]) ∧
      ((rowsOf .normalHeap events).map List.head?).Nodup := by
  obtain ⟨cx, rfl, ⟨recital⟩⟩ := MethodDef.exists_recital value_eq
  obtain ⟨start, located_eq⟩ := cx.definition.exists_located_eq
  have sorted : cx.definition.located.Pairwise fun first second => first.index < second.index := by
    rw [located_eq]
    exact pairwise_locateFrom 1 start _
  obtain ⟨table, instrs_eq, distinct, named, credits, written, written_eq, own⟩ :=
    recital.recites.names sorted
  obtain ⟨holds, body_credits⟩ := credits table (List.Subset.refl _) (cx.holds_entryState table)
  let chosen (relation : Relation) : Bool :=
    relation.insnColumn?.isSome && relation ∉ edgeRelations
  refine ⟨⟨table, {
    instrs_eq, distinct
    form := fun entry member => ?_
    rows := fun fact member => ?_
    accesses := recital.accesses_eq ▸ holds.accesses
    own := ⟨fun here => (written here).filter fun fact => chosen fact.relation, ?_,
      fun entry entry_mem fact member =>
        own entry entry_mem fact (List.mem_filter.1 member).1⟩ }⟩, ?_⟩
  · obtain ⟨kind, number, kind_named, name_eq, indexed, -⟩ := named entry member
    exact ⟨kind, number, kind_named, recital.id_eq ▸ name_eq, indexed⟩
  · by_cases header : fact.relation ∈ MethodContext.headerRelations
    · have unnamed : ∀ relation ∈ MethodContext.headerRelations, relation.insnColumn? = none := by
        decide
      intro column column_mem
      cases (unnamed _ header).symm.trans column_mem
    · have filtered := recital.filter_factsOf (· ∉ MethodContext.headerRelations) (by decide)
      have inside : fact ∈ (factsAmong recital.body ++ factsAmong recital.ending).filter
          fun fact => fact.relation ∉ MethodContext.headerRelations :=
        filtered ▸ List.mem_filter.2 ⟨member, by simpa⟩
      rcases List.mem_append.1 (List.mem_filter.1 inside).1 with body | ending
      · exact body_credits fact body
      · exact recital.credits_ending holds fact ending
  · rw [recital.filter_factsOf_body chosen (by decide), written_eq, List.filter_flatMap]
  · obtain ⟨heaps, heaps_nodup, rows_eq⟩ := recital.heaps
    refine ⟨heaps, rows_eq, ?_⟩
    rw [rows_eq, List.map_map]
    refine heaps_nodup.map fun first second same => ?_
    have both := Identifier.allocation_eq_iff.1 (Option.some.inj same)
    exact Prod.ext both.1 both.2

/-- Two objects of a class and two calls of a method have names of their own. -/
theorem identifiers_distinct_errands :
    ∃ (extracted : ExtractedMethod) (table : NameTable),
      let events := (((loneMethod errands).extract errandContainer).run .empty).events
      Naming extracted.id (loneMethod errands).located (factsOf events) extracted.accesses table ∧
        (table.map Prod.snd).Nodup ∧ table.length = 7 ∧
        (rowsOf .staticMethodInvocation events).map List.head? =
          [some "<Lone: void go()>/a.C.run/0", some "<Lone: void go()>/a.C.run/1"] ∧
        extracted.accesses.map FieldAccess.insn = ["<Lone: void go()>/write-field-size/0"] ∧
        ((rowsOf .normalHeap events).map List.head?).Nodup ∧
        rowsOf .normalHeap events =
          [["<Lone: void go()>/new a.B/0", "a.B"], ["<Lone: void go()>/new a.B/1", "a.B"]] := by
  have calls_eq : (rowsOf .staticMethodInvocation
      (((loneMethod errands).extract errandContainer).run .empty).events).map List.head? =
        [some "<Lone: void go()>/a.C.run/0", some "<Lone: void go()>/a.C.run/1"] := by
    cbv
  have objects_eq : rowsOf .normalHeap
      (((loneMethod errands).extract errandContainer).run .empty).events =
        [["<Lone: void go()>/new a.B/0", "a.B"], ["<Lone: void go()>/new a.B/1", "a.B"]] := by
    cbv
  obtain ⟨extracted, value_eq, accesses_eq⟩ := exists_extract_errands
  obtain ⟨⟨table, naming⟩, heaps, -, heaps_nodup⟩ := identifiers_distinct value_eq
  have length_eq := congrArg List.length naming.instrs_eq
  rw [List.length_map] at length_eq
  have insns_eq := congrArg (List.map Prod.fst) accesses_eq
  rw [List.map_map] at insns_eq
  exact ⟨extracted, table, naming, naming.distinct, length_eq, calls_eq, insns_eq, heaps_nodup,
    objects_eq⟩

end DalvikFacts
