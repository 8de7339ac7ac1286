import DalvikFacts.Proofs.Method.ResultRows

/-!
# Source lines

A line table is read in the order in which its items come, and may be out of order or tell several
lines for one address.  The line of an instruction is that of the last item among the closest ones
up to its address.  Rows of objects end with that line, and rows of lines exist for the invocations
of methods that have one.
-/

namespace DalvikFacts

/-! ## Line tables -/

/-- The address and the line of a line number item. -/
def DebugItem.lineNumber? : DebugItem → Option (Address × Nat)
  | lineNumber address line => some (address, line)
  | _ => none

/-- The entries of a line table at the greatest of their addresses, in order. -/
def greatestEntries (entries : List (Address × Nat)) : List (Address × Nat) :=
  entries.filter fun entry => entries.all (·.1 ≤ entry.1)

/-- The line number items of greatest address among those up to an address, in order. -/
def closestEntries (items : List DebugItem) (address : Address) : List (Address × Nat) :=
  greatestEntries ((items.filterMap DebugItem.lineNumber?).filter (·.1 ≤ address))

/-- The better of the entry found so far and the next one. -/
def laterEntry (best : Option (Address × Nat)) (entry : Address × Nat) : Option (Address × Nat) :=
  if best.all (·.1 ≤ entry.1) then some entry else best

theorem mem_greatestEntries {entries : List (Address × Nat)} {entry : Address × Nat} :
    entry ∈ greatestEntries entries ↔ entry ∈ entries ∧ ∀ other ∈ entries, other.1 ≤ entry.1 := by
  simp [greatestEntries]

theorem greatestEntries_concat (entries : List (Address × Nat)) (entry : Address × Nat) :
    greatestEntries (entries ++ [entry]) =
      (greatestEntries entries).filter (entry.1 ≤ ·.1) ++
        if entries.all (·.1 ≤ entry.1) then [entry] else [] := by
  rw [greatestEntries, List.filter_append]
  congr 1
  · rw [greatestEntries, List.filter_filter]
    refine List.filter_congr fun other _ => ?_
    rw [List.all_append, Bool.and_comm]
    simp
  · rw [List.filter_singleton, List.all_append]
    simp

/-- Going through entries in order finds the last one among the greatest. -/
theorem foldl_laterEntry (entries : List (Address × Nat)) :
    entries.foldl laterEntry none = (greatestEntries entries).getLast? := by
  -- there is a greatest entry as soon as there is any
  suffices found : entries.foldl laterEntry none = (greatestEntries entries).getLast? ∧
      (greatestEntries entries = [] → entries = []) from found.1
  induction entries using List.reverseRecOn with
  | nil => exact ⟨rfl, fun _ => rfl⟩
  | append_singleton entries entry induction =>
    obtain ⟨best_eq, nonempty⟩ := induction
    rw [List.foldl_append, List.foldl_cons, List.foldl_nil, best_eq, laterEntry,
      greatestEntries_concat]
    cases last_eq : (greatestEntries entries).getLast? with
    | none =>
      have entries_eq := nonempty (List.getLast?_eq_none_iff.1 last_eq)
      subst entries_eq
      exact ⟨rfl, by simp [greatestEntries]⟩
    | some best =>
      obtain ⟨best_mem, best_ge⟩ := mem_greatestEntries.1 (List.mem_of_getLast? last_eq)
      by_cases later : best.1 ≤ entry.1
      · have all_le : entries.all (·.1 ≤ entry.1) := by
          simpa using fun address line member =>
            UInt64.le_trans (best_ge (address, line) member) later
        rw [if_pos (by simpa using later), if_pos all_le, List.getLast?_concat]
        exact ⟨rfl, by simp⟩
      · have some_gt : ¬ entries.all (·.1 ≤ entry.1) := by
          intro all_le
          simpa [later] using List.all_eq_true.1 all_le best best_mem
        have kept : (greatestEntries entries).filter (entry.1 ≤ ·.1) = greatestEntries entries := by
          refine List.filter_eq_self.2 fun other member => decide_eq_true ?_
          have other_ge := (mem_greatestEntries.1 member).2 best best_mem
          exact UInt64.le_trans (UInt64.le_of_lt (UInt64.not_le.1 later)) other_ge
        rw [if_neg (by simpa using later), if_neg some_gt, kept, List.append_nil, last_eq]
        refine ⟨rfl, fun nothing => ?_⟩
        rw [nothing] at last_eq
        cases last_eq

theorem foldl_closer (items : List DebugItem) (address : Address) :
    items.foldl (lineAt?.closer address) none =
      ((items.filterMap DebugItem.lineNumber?).filter (·.1 ≤ address)).foldl laterEntry none := by
  rw [List.foldl_filter, List.foldl_filterMap]
  congr 1
  funext best item
  cases item with
  | lineNumber position line =>
    rw [lineAt?.closer, DebugItem.lineNumber?]
    by_cases inside : position ≤ address <;> simp [laterEntry, inside]
  | _ => rfl

theorem lineAt?_eq (items : List DebugItem) (address : Address) :
    lineAt? items address = (closestEntries items address).getLast?.map Prod.snd := by
  rw [lineAt?, foldl_closer, foldl_laterEntry, closestEntries]

/-! ## Rows of an instruction -/

/-- Whether an instruction invokes a method, rather than a call site. -/
def Instr.invokesMethod : Instr → Bool
  | invoke .. | invokePolymorphic .. => true
  | _ => false

/-- An instruction with its rows that depend on its line: those of the objects that it assigns, its
name and index if it is an invocation, and those of the line of the invocation. -/
structure LinedInstr where
  here : LocatedInstr
  objects : List (List String)
  calls : List (List String)
  lines : List (List String)

/-- The rows of an instruction are those for its line in the source, if there is one. -/
structure LinedInstr.At (own : LinedInstr) (method : String) (line : Option Nat) : Prop where
  objects : ∀ row ∈ own.objects, ∃ heap var,
    row = [Identifier.instruction method MethodContext.assignKind own.here.index,
      toString own.here.index, heap, var, method, line.elim "-1" toString]
  invocation : own.here.instr.isInvocation → ∃ insn,
    own.calls = [[insn, toString own.here.index]] ∧
    own.lines =
      if own.here.instr.invokesMethod then line.toList.map fun line => [insn, toString line] else []
  other : ¬ own.here.instr.isInvocation → own.calls = [] ∧ own.lines = []

/-- The rows of an instruction among facts. -/
def LinedInstr.ofFacts (here : LocatedInstr) (facts : List Fact) : LinedInstr :=
  ⟨here, rowsIn .assignHeapAllocation facts, invocationsAmong facts,
    rowsIn .methodInvocationLine facts⟩

theorem Instr.methodInvocationLine_mem_relations {instr : Instr}
    (writes : .methodInvocationLine ∈ instr.relations) : instr.invokesMethod := by
  cases instr with
  | invoke | invokePolymorphic => rfl
  | _ => simp [relations, MethodContext.resultRelations] at writes

theorem Instr.isInvocation_of_invokesMethod {instr : Instr} (invokes : instr.invokesMethod) :
    instr.isInvocation := by
  cases instr with
  | invoke | invokePolymorphic => rfl
  | _ => cases invokes

namespace MethodContext

variable {cx : MethodContext} {here : LocatedInstr} {state next final : MethodState}
  {outputs : List Output}

theorem lineText_eq (line : Option Nat) : Identifier.lineText line = line.elim "-1" toString := by
  cases line <;> rfl

/-- An object ends with the line of the instruction that assigns it. -/
theorem Tells.objects (told : cx.Tells here state outputs next)
    (within : ∀ fact ∈ factsAmong outputs, fact.relation ∈ here.instr.relations) {row : List String}
    (member : row ∈ rowsIn .assignHeapAllocation (factsAmong outputs)) :
    ∃ heap var, row = [cx.assignInsn here.index, toString here.index, heap, var, cx.id,
      (cx.line? here).elim "-1" toString] := by
  rw [← lineText_eq]
  cases still : here.instr.resultTo? with
  | none =>
    obtain ⟨heap, rows_eq⟩ := told.allocation within still none
    rw [rows_eq, Option.mem_toList] at member
    obtain ⟨dst, -, rfl⟩ := Option.map_eq_some_iff.1 member
    exact ⟨heap, _, rfl⟩
  | some dst =>
    cases told with
    | moveResult pending =>
      cases producer_eq : pending.producer with
      | invocation name =>
        rw [producer_eq, resultOutputs] at member
        simp at member
      | filledArray type elements =>
        rw [producer_eq, resultOutputs, factsAmong_append, factsAmong_cons_mention, rowsIn_append,
          rowsIn_allocated, factsAmong_filledElements, rowsIn_map, if_neg (by simp)] at member
        simp only [if_pos, List.append_nil, List.nil_append, reduceCtorEq, if_false, and_false,
          List.mem_singleton] at member
        exact ⟨_, _, member⟩
    | _ => simp [*, Instr.resultTo?] at still

theorem rowsIn_line_callOutputs (insn : String) (call : Call) :
    rowsIn .methodInvocationLine (factsAmong (cx.callOutputs here insn call)) =
      (cx.line? here).toList.map fun line => [insn, toString line] := by
  have receiver : rowsIn .methodInvocationLine (factsAmong
      (call.arguments.receiver.toList.flatMap (cx.receiverRows insn))) = [] := by
    apply rowsIn_eq_nil
    intro fact member
    rw [relation_receiverRows member]
    decide
  have params : rowsIn .methodInvocationLine (factsAmong (cx.paramRows insn
      call.arguments.receiver.toList.length call.arguments.params)) = [] := by
    apply rowsIn_eq_nil
    intro fact member
    rw [relation_paramRows member]
    decide
  have other : call.kind.relation ≠ .methodInvocationLine := by
    cases call.kind <;> simp [CallKind.relation]
  rw [callOutputs, factsAmong_append, factsAmong_append, factsAmong_append, rowsIn_append,
    rowsIn_append, rowsIn_append, receiver, params, lineRows, factsAmong_map_row, rowsIn_map,
    if_pos rfl, factsAmong_cons_row, rowsIn_cons, if_neg other]
  simp

theorem rowsIn_line_polymorphicCallOutputs (insn : String) (call : Call) :
    rowsIn .methodInvocationLine (factsAmong (cx.polymorphicCallOutputs here insn call)) =
      (cx.line? here).toList.map fun line => [insn, toString line] := by
  rw [polymorphicCallOutputs, factsAmong_append, rowsIn_append, rowsIn_line_callOutputs]
  simp

theorem rowsIn_line_eq_nil
    (within : ∀ fact ∈ factsAmong outputs, fact.relation ∈ here.instr.relations)
    (uninvoked : ¬ here.instr.invokesMethod) :
    rowsIn .methodInvocationLine (factsAmong outputs) = [] := by
  apply rowsIn_eq_nil
  intro fact member same
  exact uninvoked (Instr.methodInvocationLine_mem_relations (same ▸ within fact member))

/-- An invocation has one row of its line if it has one, unless it invokes a call site. -/
theorem Tells.lines (told : cx.Tells here state outputs next)
    (within : ∀ fact ∈ factsAmong outputs, fact.relation ∈ here.instr.relations)
    (invokes : here.instr.isInvocation) :
    ∃ insn, invocationsAmong (factsAmong outputs) = [[insn, toString here.index]] ∧
      rowsIn .methodInvocationLine (factsAmong outputs) =
        if here.instr.invokesMethod then
          (cx.line? here).toList.map fun line => [insn, toString line]
        else [] := by
  cases told with
  | invoke call instr_eq =>
    refine ⟨_, invocationsAmong_callOutputs _ call, ?_⟩
    rw [if_pos (by rw [instr_eq]; rfl), rowsIn_line_callOutputs]
  | invokePolymorphic call instr_eq =>
    refine ⟨_, invocationsAmong_polymorphicCallOutputs _ call, ?_⟩
    rw [if_pos (by rw [instr_eq]; rfl), rowsIn_line_polymorphicCallOutputs]
  | invokeCustom call instr_eq =>
    have uninvoked : ¬ here.instr.invokesMethod := by simp [instr_eq, Instr.invokesMethod]
    refine ⟨_, invocationsAmong_customCallOutputs _ call, ?_⟩
    rw [if_neg uninvoked, rowsIn_line_eq_nil within uninvoked]
  | _ => simp [*, Instr.isInvocation] at invokes

theorem Tells.lined (told : cx.Tells here state outputs next)
    (within : ∀ fact ∈ factsAmong outputs, fact.relation ∈ here.instr.relations) :
    (LinedInstr.ofFacts here (factsAmong outputs)).At cx.id (cx.line? here) where
  objects _ member := told.objects within member
  invocation invokes := told.lines within invokes
  other uninvoked := by
    constructor
    · apply readAmong_eq_nil
      intro fact member
      exact Instr.notMem_relations_of_not_isInvocation uninvoked (within fact member)
    · exact rowsIn_line_eq_nil within fun invokes =>
        uninvoked (Instr.isInvocation_of_invokesMethod invokes)

/-! ## Runs -/

/-- The rows about objects, invocations and lines among facts are those of instructions. -/
structure LineRows (cx : MethodContext) (steps : List LinedInstr) (facts : List Fact) : Prop where
  at_line : ∀ own ∈ steps, own.At cx.id (cx.line? own.here)
  objects : rowsIn .assignHeapAllocation facts = steps.flatMap LinedInstr.objects
  calls : invocationsAmong facts = steps.flatMap LinedInstr.calls
  lines : rowsIn .methodInvocationLine facts = steps.flatMap LinedInstr.lines

/-- Successive instructions have the rows for their lines. -/
theorem Recites.lineRows {instrs : List LocatedInstr}
    (run : cx.Recites instrs state outputs final) :
    ∃ steps : List LinedInstr, steps.map LinedInstr.here = instrs ∧
      cx.LineRows steps (factsAmong outputs) := by
  induction run with
  | nil state => exact ⟨[], rfl, by simp, rfl, rfl, rfl⟩
  | @cons here rest state next final outputs others declared told within later induction =>
    obtain ⟨steps, here_eq, rows⟩ := induction
    refine ⟨.ofFacts here (factsAmong outputs) :: steps, ?_, ?_⟩
    · rw [List.map_cons, here_eq]
      rfl
    · rw [factsAmong_append]
      constructor
      · exact List.forall_mem_cons.2 ⟨told.lined within, rows.at_line⟩
      · rw [rowsIn_append, rows.objects]
        rfl
      · simp only [readAmong_append, rows.calls]
        rfl
      · rw [rowsIn_append, rows.lines]
        rfl

/-- The instructions that have been done have the rows for their lines. -/
theorem Account.lineRows {code : CodeItem}
    {outcome : Emitted SignatureCache (Except ExtractionError ExtractedMethod)}
    (account : cx.Account code outcome) :
    ∃ steps : List LinedInstr, steps.map LinedInstr.here = account.front ∧
      cx.LineRows steps (factsOf outcome.events) := by
  obtain ⟨steps, here_eq, rows⟩ := account.recites.lineRows
  have objects := account.filter_factsOf_body (· == .assignHeapAllocation) (by decide)
  have calls := account.filter_factsOf_body (· ∈ invocationRelations) (by decide)
  have lines := account.filter_factsOf_body (· == .methodInvocationLine) (by decide)
  refine ⟨steps, here_eq, rows.at_line, ?_, ?_, ?_⟩
  · rw [← rows.objects, rowsIn, objects, rowsIn]
  · rw [← rows.calls, invocationsAmong, readAmong, calls, invocationsAmong, readAmong]
  · rw [← rows.lines, rowsIn, lines, rowsIn]

theorem line?_eq {code : CodeItem} (code_eq : cx.definition.code = some code)
    (here : LocatedInstr) :
    cx.line? here = (closestEntries code.debugItems here.address).getLast?.map Prod.snd := by
  rw [line?, code_eq]
  exact lineAt?_eq code.debugItems here.address

end MethodContext

/-- The line of an instruction is that of the last debug item among the line number items of
greatest address up to its own.  In whatever way an extraction ends, each instruction that has been
done assigns its objects at that line, -1 if there is none, and as an invocation of a method it has
one row of the line, and none without.  An invocation of a call site has no such row. -/
theorem source_lines {container : Container} {definition : MethodDef} {code : CodeItem}
    {cache : SignatureCache} (code_eq : definition.code = some code) :
    let outcome := (definition.extract container).run cache
    let line (here : LocatedInstr) : Option Nat :=
      (closestEntries code.debugItems here.address).getLast?.map Prod.snd
    (∀ cx : MethodContext, cx.definition = definition → ∀ here, cx.line? here = line here) ∧
    ∃ (method : String) (steps : List LinedInstr) (back : List LocatedInstr),
      code.located = steps.map LinedInstr.here ++ back ∧
      (∀ extracted, outcome.value = .ok extracted → back = [] ∧ extracted.id = method) ∧
      (∀ own ∈ steps, own.At method (line own.here)) ∧
      rowsOf .assignHeapAllocation outcome.events = steps.flatMap LinedInstr.objects ∧
      invocationsAmong (factsOf outcome.events) = steps.flatMap LinedInstr.calls ∧
      rowsOf .methodInvocationLine outcome.events = steps.flatMap LinedInstr.lines := by
  intro outcome line
  have lined : ∀ cx : MethodContext, cx.definition = definition → ∀ here,
      cx.line? here = line here := by
    rintro cx rfl here
    exact cx.line?_eq code_eq here
  refine ⟨lined, ?_⟩
  rcases definition.extract_outcome container cache with
    ⟨nothing, error, error_eq⟩ | ⟨cx, created, later, rfl, quiet, value_eq, events_eq⟩
  · have events_eq : outcome.events = [] := nothing
    have failed : outcome.value = .error error := error_eq
    refine ⟨"", [], code.located, rfl, ?_, by simp, ?_⟩
    · intro extracted extracted_eq
      cases failed.symm.trans extracted_eq
    · rw [events_eq]
      exact ⟨rfl, rfl, rfl⟩
  · obtain ⟨account⟩ := cx.exists_account code_eq later
    obtain ⟨steps, here_eq, rows⟩ := account.lineRows
    have facts_eq : factsOf outcome.events = factsOf (cx.extract.run.perform later).events := by
      rw [← List.nil_append (factsOf (cx.extract.run.perform later).events),
        ← quiet.factsOf_eq_nil, ← factsOf_append]
      exact congrArg factsOf events_eq
    refine ⟨cx.id, steps, account.back, ?_, ?_, ?_, ?_, ?_, ?_⟩
    · rw [here_eq, account.located_eq]
    · intro extracted extracted_eq
      obtain ⟨back_eq, -, complete_eq⟩ :=
        account.complete extracted (value_eq.symm.trans extracted_eq)
      exact ⟨back_eq, congrArg ExtractedMethod.id complete_eq⟩
    · intro own member
      rw [← lined cx rfl own.here]
      exact rows.at_line own member
    · rw [← rows.objects, ← facts_eq]
      rfl
    · rw [facts_eq, rows.calls]
    · rw [← rows.lines, ← facts_eq]
      rfl

/-- A line table that is out of order, and tells two lines for one address. -/
def untidyLines : List DebugItem :=
  [.lineNumber 5 50, .lineNumber 2 20, .epilogueBegin 4, .lineNumber 2 21]

/-- A method with that table which makes an array before its first line. -/
def untidy : MethodDef :=
  { loneMethod [] with
    code := some
      { registers := 4
        instructions :=
          [.newArray ⟨0⟩ ⟨1⟩ 0, .invoke .static (.list [⟨1⟩, ⟨2⟩, ⟨3⟩]) 0, .newArray ⟨0⟩ ⟨1⟩ 0]
        tries := []
        debugItems := untidyLines } }

/-- The later line of an address holds, and there is none before the first address. -/
theorem source_lines_untidy :
    let events := ((untidy.extract pairedContainer).run .empty).events
    (∃ insn, rowsOf .methodInvocationLine events = [[insn, "21"]]) ∧
    ∀ row ∈ rowsOf .assignHeapAllocation events,
      (row[1]?, row.getLast?) ∈
        [(some "1", some "-1"), (some "2", some "21"), (some "3", some "50")] := by
  intro events
  have found : ∃ extracted,
      ((untidy.extract pairedContainer).run .empty).value = .ok extracted :=
    MethodDef.exists_extract_sound rfl rfl (by decide)
  obtain ⟨extracted, value_eq⟩ := found
  obtain ⟨-, method, steps, back, located_eq, ends, at_line, objects, -, lines⟩ :=
    @source_lines pairedContainer untidy _ .empty rfl
  obtain ⟨rfl, -⟩ := ends extracted value_eq
  rw [List.append_nil] at located_eq
  obtain ⟨first, rest, rfl, first_eq, located_eq⟩ := List.map_eq_cons_iff.1 located_eq.symm
  obtain ⟨second, rest, rfl, second_eq, located_eq⟩ := List.map_eq_cons_iff.1 located_eq
  obtain ⟨third, rest, rfl, third_eq, located_eq⟩ := List.map_eq_cons_iff.1 located_eq
  cases List.map_eq_nil_iff.1 located_eq
  simp only [List.forall_mem_cons] at at_line
  obtain ⟨first_at, second_at, third_at, -⟩ := at_line
  constructor
  · obtain ⟨-, first_quiet⟩ := first_at.other (by rw [first_eq]; decide)
    obtain ⟨-, third_quiet⟩ := third_at.other (by rw [third_eq]; decide)
    obtain ⟨insn, -, second_lines⟩ := second_at.invocation (by rw [second_eq]; rfl)
    rw [second_eq] at second_lines
    refine ⟨insn, lines.trans ?_⟩
    rw [List.flatMap_cons, List.flatMap_cons, List.flatMap_singleton, first_quiet, second_lines,
      third_quiet]
    rfl
  · intro row member
    rw [objects, List.mem_flatMap] at member
    obtain ⟨own, own_mem, member⟩ := member
    simp only [List.mem_cons, List.not_mem_nil, or_false] at own_mem ⊢
    rcases own_mem with rfl | rfl | rfl
    · obtain ⟨heap, var, rfl⟩ := first_at.objects row member
      rw [first_eq]
      exact .inl rfl
    · obtain ⟨heap, var, rfl⟩ := second_at.objects row member
      rw [second_eq]
      exact .inr (.inl rfl)
    · obtain ⟨heap, var, rfl⟩ := third_at.objects row member
      rw [third_eq]
      exact .inr (.inr rfl)

end DalvikFacts
