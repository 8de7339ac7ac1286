import DalvikFacts.Proofs.Method.ResultRows

/-!
# Empty arrays

An array is known to be empty in two cases: the instruction before its allocation has loaded zero
into the register of its size, or it is filled with no registers.  The zeroed register is kept from
one instruction to the next, whatever else writes to it; that it is used only by the next
instruction makes it the same as a look at the instruction before.
-/

namespace DalvikFacts

theorem NarrowForm.value_eq_zero_iff (form : NarrowForm) (literal : Int) :
    form.value literal = 0 ↔ literal = 0 := by
  cases form <;> simp [value]

namespace Instr

/-- Whether an instruction loads a 32 bit literal that is zero into a register. -/
def loadsZero (reg : Reg) : Instr → Bool
  | const _ dst literal => literal == 0 && dst == reg
  | _ => false

/-- Whether an instruction allocates an array that is known to be empty, given the instruction
before it. -/
def allocatesEmpty (previous : Option Instr) : Instr → Bool
  | newArray _ size _ => previous.any (·.loadsZero size)
  | moveResult .. => previous.bind filling? == some []
  | _ => false

theorem loadsZero_iff {instr : Instr} {reg : Reg} :
    instr.loadsZero reg ↔ ∃ form, instr = .const form reg 0 := by
  cases instr with
  | const form dst literal => simp [loadsZero, and_comm]
  | _ => simp [loadsZero]

theorem filling?_eq_some_iff {instr : Instr} {registers : List Reg} :
    instr.filling? = some registers ↔
      ∃ operands type, instr = .filledNewArray operands type ∧ operands.registers = registers := by
  cases instr with
  | filledNewArray operands type => simp [filling?]
  | _ => simp [filling?]

theorem allocatesEmpty_iff {instr : Instr} {previous : Option Instr} :
    instr.allocatesEmpty previous ↔ ∃ before, previous = some before ∧
      ((∃ dst size type form, instr = .newArray dst size type ∧ before = .const form size 0) ∨
        ∃ kind dst operands type, instr = .moveResult kind dst ∧
          before = .filledNewArray operands type ∧ operands.registers = []) := by
  cases previous with
  | none => cases instr <;> simp [allocatesEmpty]
  | some before =>
    cases instr with
    | newArray dst size type => simp [allocatesEmpty, loadsZero_iff]
    | moveResult kind dst => simp [allocatesEmpty, filling?_eq_some_iff]
    | _ => simp [allocatesEmpty]

end Instr

theorem CodeItem.index_of_located_eq {code : CodeItem} {here : LocatedInstr}
    {before after : List LocatedInstr} (located_eq : code.located = before ++ here :: after) :
    here.index = before.length + 1 := by
  obtain ⟨front, back, -, before_eq, here_eq⟩ := eq_of_locateFrom_eq located_eq
  rw [here_eq, before_eq, length_locateFrom]

theorem CarryOver.zeroSize_eq_false {carry : CarryOver} {index : Nat}
    (behind : ∀ zeroed, carry.zeroed = some zeroed → zeroed.index < index) (size : Reg) :
    carry.zeroSize (index + 1) size = false := by
  unfold zeroSize
  cases zeroed_eq : carry.zeroed with
  | none => rfl
  | some zeroed =>
    have before := behind zeroed zeroed_eq
    have apart : (zeroed.index + 1 == index + 1) = false := beq_eq_false_iff_ne.2 (by omega)
    rw [Option.any_some, apart, Bool.and_false]

theorem CarryOver.zeroed_loadNarrow {carry : CarryOver} {index : Nat} {reg : Reg} {literal : Int}
    (nonzero : literal ≠ 0) {zeroed : ZeroedRegister}
    (zeroed_eq : (carry.loadNarrow index reg literal).zeroed = some zeroed) :
    carry.zeroed = some zeroed := by
  rw [loadNarrow, if_neg nonzero] at zeroed_eq
  split at zeroed_eq
  · cases zeroed_eq
  · exact zeroed_eq

namespace MethodContext

/-- What is kept about zeroed registers, when an instruction is reached: the size of an array is
taken to be zero if the instruction before has zeroed it. -/
structure Zeroes (state : MethodState) (index : Nat) (previous : Option Instr) : Prop where
  behind : ∀ zeroed, state.carry.zeroed = some zeroed → zeroed.index < index
  size : ∀ reg, state.carry.zeroSize index reg = previous.any (·.loadsZero reg)

/-- The rows of allocated objects and of empty arrays among facts are those of instructions. -/
structure AllocationRows (cx : MethodContext) (instrs : List (Option NamedInstr × NamedInstr))
    (facts : List Fact) : Prop where
  objects : rowsIn .assignHeapAllocation facts =
    instrs.filterMap fun (previous, own) => own.allocated? cx previous
  empties : rowsIn .emptyArray facts =
    (instrs.filter fun (previous, own) =>
      own.instr.allocatesEmpty (previous.map NamedInstr.instr)).map fun (_, own) => [own.heap]

variable {cx : MethodContext} {here : LocatedInstr} {state next final : MethodState}
  {outputs : List Output}

theorem AllocationRows.append {instrs more : List (Option NamedInstr × NamedInstr)}
    {facts others : List Fact} (first : cx.AllocationRows instrs facts)
    (rest : cx.AllocationRows more others) :
    cx.AllocationRows (instrs ++ more) (facts ++ others) where
  objects := by rw [rowsIn_append, first.objects, rest.objects, List.filterMap_append]
  empties := by
    rw [rowsIn_append, first.empties, rest.empties, List.filter_append, List.map_append]

theorem allocationRows_singleton {previous : Option NamedInstr} {own : NamedInstr}
    {facts : List Fact}
    (objects : rowsIn .assignHeapAllocation facts = (own.allocated? cx previous).toList)
    (empties : rowsIn .emptyArray facts =
      if own.instr.allocatesEmpty (previous.map NamedInstr.instr) then [[own.heap]] else []) :
    cx.AllocationRows [(previous, own)] facts where
  objects := by
    rw [objects]
    cases allocated_eq : own.allocated? cx previous <;> simp [allocated_eq]
  empties := by
    rw [empties]
    cases empty_eq : own.instr.allocatesEmpty (previous.map NamedInstr.instr) <;> simp [empty_eq]

/-! ## Instructions -/

/-- An instruction zeroes a register with the literal that it loads, or leaves none zeroed that was
not before. -/
theorem Tells.zeroed (told : cx.Tells here state outputs next) :
    (∃ form dst, here.instr = .const form dst 0 ∧
      next.carry.zeroed = some ⟨here.index, dst⟩) ∨
    (∀ reg, here.instr.loadsZero reg = false) ∧
      ∀ zeroed, next.carry.zeroed = some zeroed → state.carry.zeroed = some zeroed := by
  cases told with
  | @const form dst literal instr_eq =>
    by_cases zero : literal = 0
    · subst zero
      refine .inl ⟨form, dst, instr_eq, ?_⟩
      have value_eq : form.value 0 = 0 := (form.value_eq_zero_iff 0).2 rfl
      change (state.carry.loadNarrow here.index dst (form.value 0)).zeroed = _
      rw [value_eq]
      rfl
    · refine .inr ⟨fun reg => by simp [instr_eq, Instr.loadsZero, zero], fun zeroed => ?_⟩
      exact CarryOver.zeroed_loadNarrow fun value_eq => zero ((form.value_eq_zero_iff _).1 value_eq)
  | newArray found instr_eq =>
    exact .inr ⟨fun reg => by rw [instr_eq]; rfl, fun zeroed zeroed_eq => by cases zeroed_eq⟩
  | moveResult pending instr_eq =>
    refine .inr ⟨fun reg => by rw [instr_eq]; rfl, fun zeroed zeroed_eq => ?_⟩
    unfold resultTaken at zeroed_eq
    split at zeroed_eq <;> exact zeroed_eq
  | fillArrayData instr_eq =>
    refine .inr ⟨fun reg => by rw [instr_eq]; rfl, fun zeroed zeroed_eq => ?_⟩
    unfold awaitingFill at zeroed_eq
    split at zeroed_eq
    · exact zeroed_eq
    · split at zeroed_eq <;> exact zeroed_eq
  | switch instr_eq =>
    refine .inr ⟨fun reg => by rw [instr_eq]; rfl, fun zeroed zeroed_eq => ?_⟩
    unfold awaitingCases at zeroed_eq
    split at zeroed_eq <;> exact zeroed_eq
  | _ => exact .inr ⟨fun reg => by simp [*, Instr.loadsZero], fun zeroed zeroed_eq => zeroed_eq⟩

/-- Behind an instruction, what is kept about zeroed registers is what it has loaded. -/
theorem Zeroes.step {previous : Option Instr} (zeroes : Zeroes state here.index previous)
    (told : cx.Tells here state outputs next) :
    Zeroes next (here.index + 1) (some here.instr) := by
  rcases told.zeroed with ⟨form, dst, instr_eq, zeroed_eq⟩ | ⟨loads, kept⟩
  · constructor
    · intro zeroed found_eq
      cases zeroed_eq.symm.trans found_eq
      exact Nat.lt_succ_self _
    · intro reg
      rw [CarryOver.zeroSize, zeroed_eq, instr_eq]
      simp [Instr.loadsZero]
  · constructor
    · intro zeroed found_eq
      exact Nat.lt_succ_of_lt (zeroes.behind zeroed (kept zeroed found_eq))
    · intro reg
      rw [Option.any_some, loads reg]
      exact CarryOver.zeroSize_eq_false
        (fun zeroed found_eq => zeroes.behind zeroed (kept zeroed found_eq)) reg

/-- An array that is moved out is empty if it is filled with no registers. -/
theorem Awaits.allocationRows {previous : Option NamedInstr} {own : NamedInstr} {kind : MoveKind}
    {dst : Reg} {pending : PendingResult} (awaits : Awaits state own.here.index previous)
    (instr_eq : own.instr = .moveResult kind dst) (result_eq : state.carry.result = some pending)
    (behind : pending.index + 1 = own.here.index)
    (heap_eq : ∀ type elements, pending.producer = .filledArray type elements →
      own.heap = cx.nextHeap state type) :
    cx.AllocationRows [(previous, own)]
      (factsAmong (cx.resultOutputs own.here state dst pending.producer)) := by
  obtain ⟨maker, rfl, made⟩ := (awaits pending result_eq).2 behind
  cases producer_eq : pending.producer with
  | invocation name =>
    rw [producer_eq] at made
    have filling_eq : maker.instr.filling? = none := Instr.filling?_of_isInvocation made.1
    constructor
    · simp [resultOutputs, NamedInstr.allocated?, instr_eq, Instr.allocates?, filling_eq]
    · simp [resultOutputs, instr_eq, Instr.allocatesEmpty, filling_eq]
  | filledArray type elements =>
    rw [producer_eq] at made
    have filling_eq : maker.instr.filling? = some elements := made
    have elements_nil : ∀ relation ∈ [Relation.assignHeapAllocation, .emptyArray], rowsIn relation
        (factsAmong (cx.filledElements own.here (cx.variableOf dst) own.heap elements)) = [] := by
      intro relation other
      rw [factsAmong_filledElements, rowsIn_map, if_neg]
      rintro rfl
      simp at other
    rw [resultOutputs, ← heap_eq type elements producer_eq, factsAmong_append,
      factsAmong_cons_mention]
    constructor
    · rw [rowsIn_append, rowsIn_allocated, elements_nil _ (by simp)]
      simp [NamedInstr.allocated?, instr_eq, Instr.allocates?, filling_eq]
    · rw [rowsIn_append, rowsIn_allocated, elements_nil _ (by simp)]
      cases elements <;> simp [instr_eq, Instr.allocatesEmpty, filling_eq]

theorem Tells.emptyArray_eq_nil (told : cx.Tells here state outputs next)
    (within : ∀ fact ∈ factsAmong outputs, fact.relation ∈ here.instr.relations)
    (still : here.instr.resultTo? = none)
    (unmade : ∀ dst size type, here.instr ≠ .newArray dst size type) :
    rowsIn .emptyArray (factsAmong outputs) = [] := by
  cases told with
  | newInstance name => simp [newInstanceOutputs, rowsIn_allocated]
  | newArray found instr_eq => exact absurd instr_eq (unmade _ _ _)
  | moveResult pending instr_eq =>
    rw [instr_eq] at still
    cases still
  | _ =>
    apply rowsIn_eq_nil
    intro fact member same
    have known := within fact member
    simp [*, Instr.relations, callRelations] at known

/-- An instruction that moves no result out has the rows of the object that it allocates. -/
theorem Tells.allocationRows (told : cx.Tells here state outputs next)
    (within : ∀ fact ∈ factsAmong outputs, fact.relation ∈ here.instr.relations)
    (still : here.instr.resultTo? = none) {previous : Option NamedInstr}
    (zeroes : Zeroes state here.index (previous.map NamedInstr.instr)) (insn : String) :
    ∃ heap, cx.AllocationRows [(previous, ⟨here, insn, heap⟩)] (factsAmong outputs) := by
  by_cases makes : ∃ dst size type, here.instr = .newArray dst size type
  · obtain ⟨dst, size, type, instr_eq⟩ := makes
    cases told with
    | newArray found own_eq =>
      cases instr_eq.symm.trans own_eq
      have typed : ∀ relation ∈ [Relation.assignHeapAllocation, .emptyArray],
          rowsIn relation (factsAmong (arrayTypeRows found)) = [] := by
        intro relation other
        simp only [List.mem_cons, List.not_mem_nil, or_false] at other
        rw [arrayTypeRows, factsAmong_cons_row, factsAmong_map_row, rowsIn_cons, rowsIn_map]
        rcases other with rfl | rfl <;> simp
      have empty_iff : here.instr.allocatesEmpty (previous.map NamedInstr.instr) =
          state.carry.zeroSize here.index size := by
        rw [zeroes.size, instr_eq]
        rfl
      refine ⟨cx.nextHeap state found.sourceName, allocationRows_singleton ?_ ?_⟩
      · rw [newArrayOutputs, factsAmong_append, factsAmong_cons_mention, rowsIn_append,
          typed _ (by simp), rowsIn_allocated]
        simp [NamedInstr.allocated?, NamedInstr.instr, instr_eq, Instr.allocates?]
      · rw [newArrayOutputs, factsAmong_append, factsAmong_cons_mention, rowsIn_append,
          typed _ (by simp), rowsIn_allocated]
        simp [NamedInstr.instr, empty_iff]
    | _ => simp_all
  · have unmade : ∀ dst size type, here.instr ≠ .newArray dst size type :=
      fun dst size type instr_eq => makes ⟨dst, size, type, instr_eq⟩
    have uncounted : here.instr.allocatesEmpty (previous.map NamedInstr.instr) = false := by
      cases instr_eq : here.instr with
      | newArray dst size type => exact absurd instr_eq (unmade dst size type)
      | moveResult =>
        rw [instr_eq] at still
        cases still
      | _ => rfl
    obtain ⟨heap, objects⟩ := told.allocation within still (previous.map NamedInstr.instr)
    refine ⟨heap, allocationRows_singleton objects ?_⟩
    rw [told.emptyArray_eq_nil within still unmade]
    exact (if_neg (by simp [NamedInstr.instr, uncounted])).symm

/-- What one instruction contributes to the rows of objects and of empty arrays. -/
theorem Tells.allocationRows_step (told : cx.Tells here state outputs next)
    (within : ∀ fact ∈ factsAmong outputs, fact.relation ∈ here.instr.relations)
    {previous : Option NamedInstr} (awaits : Awaits state here.index previous)
    (zeroes : Zeroes state here.index (previous.map NamedInstr.instr)) :
    ∃ insn heap, Awaits next (here.index + 1) (some ⟨here, insn, heap⟩) ∧
      cx.AllocationRows [(previous, ⟨here, insn, heap⟩)] (factsAmong outputs) := by
  have exists_insn : ∃ insn, ∀ heap, Awaits next (here.index + 1) (some ⟨here, insn, heap⟩) := by
    by_cases invokes : here.instr.isInvocation
    · obtain ⟨kind, -, -, result_eq⟩ := told.invocation invokes
      exact ⟨_, fun heap => awaits.step told heap fun _ => result_eq⟩
    · exact ⟨"", fun heap => awaits.step told heap fun invoked => absurd invoked invokes⟩
  obtain ⟨insn, awaits_next⟩ := exists_insn
  cases still : here.instr.resultTo? with
  | none =>
    obtain ⟨heap, rows⟩ := told.allocationRows within still zeroes insn
    exact ⟨insn, heap, awaits_next heap, rows⟩
  | some dst =>
    cases told with
    | moveResult pending instr_eq result_eq behind =>
      refine ⟨insn, cx.movedHeap state pending.producer, awaits_next _,
        Awaits.allocationRows awaits instr_eq result_eq behind ?_⟩
      intro type elements producer_eq
      exact congrArg (cx.movedHeap state) producer_eq
    | _ => simp [*, Instr.resultTo?] at still

/-! ## Runs -/

/-- Successive instructions have the rows of the objects that they allocate, and of those that are
empty. -/
theorem Recites.allocationRows {index : Nat} {address : Address} {previous : Option NamedInstr}
    {instrs : List Instr}
    (run : cx.Recites (locateFrom index address instrs) state outputs final)
    (awaits : Awaits state index previous)
    (zeroes : Zeroes state index (previous.map NamedInstr.instr)) :
    ∃ named : List NamedInstr, named.map NamedInstr.here = locateFrom index address instrs ∧
      cx.AllocationRows (withPrevious previous named) (factsAmong outputs) := by
  induction instrs generalizing index address previous state outputs with
  | nil =>
    cases run
    exact ⟨[], rfl, rfl, rfl⟩
  | cons instr rest induction =>
    cases run with
    | @cons here _ _ next _ first others declared told within later =>
      have awaits_here : Awaits (state.reach address index) index previous := awaits
      have zeroes_here : Zeroes (state.reach address index) index
        (previous.map NamedInstr.instr) := ⟨zeroes.behind, zeroes.size⟩
      obtain ⟨insn, heap, awaits_next, own_rows⟩ :=
        told.allocationRows_step within awaits_here zeroes_here
      have zeroes_next := zeroes_here.step told
      have awaits_later : Awaits (next.withDeclared declared) (index + 1)
          (some ⟨⟨index, address, instr⟩, insn, heap⟩) := awaits_next
      have zeroes_later : Zeroes (next.withDeclared declared) (index + 1) (some instr) :=
        ⟨zeroes_next.behind, zeroes_next.size⟩
      obtain ⟨named, here_eq, rows⟩ := induction later awaits_later zeroes_later
      refine ⟨⟨⟨index, address, instr⟩, insn, heap⟩ :: named, ?_, ?_⟩
      · rw [List.map_cons, here_eq, locateFrom]
      · rw [factsAmong_append]
        exact own_rows.append rows

theorem zeroes_entryState : Zeroes cx.entryState 1 none := by
  have zeroed_none : cx.entryState.carry.zeroed = none := cx.entryState_same .zeroed (by simp)
  constructor
  · intro zeroed zeroed_eq
    cases zeroed_none.symm.trans zeroed_eq
  · intro reg
    rw [CarryOver.zeroSize, zeroed_none]
    rfl

/-- The rows of the objects and of the empty arrays of a method. -/
theorem Recital.allocationRows {events : List Event} {extracted : ExtractedMethod}
    (recital : cx.Recital events extracted) :
    ∃ named : List NamedInstr, named.map NamedInstr.here = cx.definition.located ∧
      cx.AllocationRows (withPrevious none named) (factsOf events) := by
  obtain ⟨start, located_eq⟩ := cx.definition.exists_located_eq
  obtain ⟨named, here_eq, rows⟩ :=
    (located_eq ▸ recital.recites).allocationRows awaits_entryState zeroes_entryState
  refine ⟨named, here_eq.trans located_eq.symm, ?_⟩
  have body_eq : ∀ relation ∈ [Relation.assignHeapAllocation, .emptyArray],
      rowsIn relation (factsOf events) = rowsIn relation (factsAmong recital.body) := by
    intro relation member
    rw [rowsIn, recital.filter_factsOf_body (· == relation)]
    · rfl
    · simp only [List.mem_cons, List.not_mem_nil, or_false] at member
      rcases member with rfl | rfl <;> decide
  constructor
  · rw [body_eq _ (by simp)]
    exact rows.objects
  · rw [body_eq _ (by simp)]
    exact rows.empties

end MethodContext

/-- The arrays that are known to be empty: the object of each `new-array` that stands next to a
literal of 32 bits loading zero into the register of its size, and the object of each result moved
out next to an array that is filled with no registers.  No other object is one of them. -/
theorem empty_arrays {container : Container} {definition : MethodDef} {code : CodeItem}
    {cache : SignatureCache} {extracted : ExtractedMethod} (code_eq : definition.code = some code)
    (value_eq : ((definition.extract container).run cache).value = .ok extracted) :
    ∃ (cx : MethodContext) (named : List NamedInstr),
      ((MethodContext.create container definition).run cache).value = .ok cx ∧
      cx.id = extracted.id ∧ named.map NamedInstr.here = code.located ∧
      let events := ((definition.extract container).run cache).events
      rowsOf .assignHeapAllocation events =
        ((withPrevious none named).filterMap fun (previous, own) => own.allocated? cx previous) ∧
      rowsOf .emptyArray events =
        (((withPrevious none named).filter fun (previous, own) =>
          own.instr.allocatesEmpty (previous.map NamedInstr.instr)).map fun (_, own) =>
            [own.heap]) ∧
      ∀ previous own, (previous, own) ∈ withPrevious none named →
        (own.instr.allocatesEmpty (previous.map NamedInstr.instr) ↔
          ∃ before, previous = some before ∧ before.here.index + 1 = own.here.index ∧
            ((∃ dst size type form, own.instr = .newArray dst size type ∧
                before.instr = .const form size 0) ∨
              ∃ kind dst operands type, own.instr = .moveResult kind dst ∧
                before.instr = .filledNewArray operands type ∧ operands.registers = [])) := by
  obtain ⟨cx, create_eq, -⟩ := Extract.exists_of_bind_ok cache value_eq
  obtain ⟨-, definition_eq, -, -⟩ := cx.create_outcome create_eq
  subst definition_eq
  obtain ⟨recital⟩ := MethodDef.recital_of_create create_eq value_eq
  obtain ⟨named, here_eq, rows⟩ := recital.allocationRows
  have located_eq : cx.definition.located = code.located := by
    rw [MethodDef.located, code_eq]
    rfl
  rw [located_eq] at here_eq
  refine ⟨cx, named, create_eq, recital.id_eq.symm, here_eq, rows.objects, rows.empties, ?_⟩
  intro previous own pair_mem
  rw [Instr.allocatesEmpty_iff]
  constructor
  · rintro ⟨_, previous_eq, law⟩
    obtain ⟨before, rfl, rfl⟩ := Option.map_eq_some_iff.1 previous_eq
    obtain ⟨front, back, named_eq⟩ := mem_withPrevious_iff.1 pair_mem
    rw [Option.toList_none, List.nil_append] at named_eq
    have split_eq : code.located = front.map NamedInstr.here ++
        before.here :: ([own.here] ++ back.map NamedInstr.here) := by
      rw [← here_eq, named_eq]
      simp
    have next_eq : code.located = (front.map NamedInstr.here ++ [before.here]) ++
        own.here :: back.map NamedInstr.here := by
      rw [split_eq]
      simp
    refine ⟨before, rfl, ?_, law⟩
    rw [CodeItem.index_of_located_eq split_eq, CodeItem.index_of_located_eq next_eq]
    simp
  · rintro ⟨before, rfl, -, law⟩
    exact ⟨before.instr, rfl, law⟩

/-- A zero makes one array empty only, and an array filled with nothing is empty. -/
theorem empty_arrays_relay :
    let instrs : List Instr :=
      [.const .four ⟨1⟩ 0, .newArray ⟨0⟩ ⟨1⟩ 0, .newArray ⟨0⟩ ⟨1⟩ 0, .filledNewArray (.list []) 0,
        .moveResult .object ⟨0⟩]
    ∃ first second third : String,
      let events := (((relay instrs).extract pairedContainer).run .empty).events
      (rowsOf .assignHeapAllocation events).map (·.getD 2 "") = [first, second, third] ∧
      rowsOf .emptyArray events = [[first], [third]] := by
  intro instrs
  have found : ∃ extracted,
      (((relay instrs).extract pairedContainer).run .empty).value = .ok extracted :=
    MethodDef.exists_extract_sound rfl rfl (by decide)
  obtain ⟨extracted, value_eq⟩ := found
  obtain ⟨cx, named, -, -, here_eq, objects, empties, -⟩ := empty_arrays rfl value_eq
  obtain ⟨load, rest, rfl, load_eq, here_eq⟩ := List.map_eq_cons_iff.1 here_eq
  obtain ⟨first, rest, rfl, first_eq, here_eq⟩ := List.map_eq_cons_iff.1 here_eq
  obtain ⟨second, rest, rfl, second_eq, here_eq⟩ := List.map_eq_cons_iff.1 here_eq
  obtain ⟨filled, rest, rfl, filled_eq, here_eq⟩ := List.map_eq_cons_iff.1 here_eq
  obtain ⟨third, rest, rfl, third_eq, here_eq⟩ := List.map_eq_cons_iff.1 here_eq
  cases List.map_eq_nil_iff.1 here_eq
  refine ⟨first.heap, second.heap, third.heap, ?_, ?_⟩
  · rw [objects]
    simp [withPrevious, NamedInstr.allocated?, NamedInstr.instr, Instr.allocates?, load_eq,
      first_eq, second_eq, filled_eq, third_eq, Instr.filling?]
  · rw [empties]
    simp [withPrevious, NamedInstr.instr, Instr.allocatesEmpty, Instr.loadsZero, Instr.filling?,
      Operands.registers, load_eq, first_eq, second_eq, filled_eq, third_eq]

end DalvikFacts
